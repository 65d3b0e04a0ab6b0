import VoltykBot.Lib.Binary64
import VoltykBot.Power.State

/-!
This module contains the numbers that the time between two changes is given in: `duration_minutes` as
PostgreSQL divides it, and the seconds of a row of `power_history`, which are computed on doubles.
-/

namespace PowerMonitor

open Binary64

/--
The decimals of `EXTRACT(EPOCH FROM ...) / 60`, a `numeric` of base 10000: those of 16 significant digits, the
first of which is only estimated, and at least the six of the dividend.
-/
def divScale (us : Nat) : Nat :=
  let digits := us * 100
  let weight : Int := Nat.log 10000 digits - 2
  let firstDigit := digits / 10000 ^ Nat.log 10000 digits
  let quotientWeight := if firstDigit ≤ 60 then weight - 1 else weight
  (max (16 - quotientWeight * 4) 6).toNat

def numericRound (scale : Nat) (q : ℚ) : ℚ :=
  let digits := ⌊|q| * 10 ^ scale + 1 / 2⌋ / (10 ^ scale : ℚ)
  if 0 ≤ q then digits else -digits

def durationMinutes (interval : Time) : ℚ :=
  numericRound (divScale interval.natAbs) (interval / 60000000)

def truncated (q : ℚ) : Int := if 0 ≤ q then ⌊q⌋ else ⌈q⌉

/--
`int(float(duration_minutes) * 60)`.
-/
def durationSeconds (interval : Time) : Int :=
  truncated (nearest (nearest (durationMinutes interval) * 60))

theorem abs_numericRound_sub_le (scale : Nat) {q : ℚ} (hq : 0 ≤ q)
    : |numericRound scale q - q| ≤ 1 / 2 / 10 ^ scale := by
  have hpow : (0 : ℚ) < 10 ^ scale := by positivity
  have hfloor := Int.floor_le (q * 10 ^ scale + 1 / 2)
  have hlt := Int.lt_floor_add_one (q * 10 ^ scale + 1 / 2)
  have hscaled : |(⌊q * 10 ^ scale + 1 / 2⌋ : ℚ) - q * 10 ^ scale| ≤ 1 / 2 := by
    rw [abs_le]
    constructor <;> linarith
  have hcancel : numericRound scale q - q = (⌊q * 10 ^ scale + 1 / 2⌋ - q * 10 ^ scale) / 10 ^ scale := by
    unfold numericRound
    rw [if_pos hq, abs_of_nonneg hq, sub_div, mul_div_cancel_right₀ _ hpow.ne']
  rw [hcancel, abs_div, abs_of_pos hpow]
  exact div_le_div_of_nonneg_right hscaled hpow.le

theorem numericRound_intCast (scale : Nat) {n : Int} (hn : 0 ≤ n) : numericRound scale n = n := by
  have hnq : (0 : ℚ) ≤ n := Int.cast_nonneg hn
  have hpow : (0 : ℚ) < 10 ^ scale := by positivity
  have hfloor : ⌊(n : ℚ) * 10 ^ scale + 1 / 2⌋ = n * 10 ^ scale := by
    rw [Int.floor_eq_iff]
    push_cast
    constructor <;> linarith
  unfold numericRound
  rw [if_pos hnq, abs_of_nonneg hnq, hfloor]
  push_cast
  exact mul_div_cancel_right₀ _ hpow.ne'

theorem pow_quotientWeight_le {us w : Nat} (hw : 10000 ^ w ≤ us * 100)
    : (10000 : ℚ) ^ (if us * 100 / 10000 ^ w ≤ 60 then (w : Int) - 2 - 1 else w - 2) ≤ us / 60000000 := by
  have hpow : 0 < 10000 ^ w := by positivity
  split
  . have hdigits : (10000 : ℚ) ^ w ≤ us * 100 := by exact_mod_cast hw
    rw [sub_sub, zpow_sub₀ (by norm_num), zpow_natCast]
    norm_num
    linarith
  next hfirst =>
    have hdigits : 61 * 10000 ^ w ≤ us * 100 := by
      have h := (Nat.le_div_iff_mul_le hpow).mp (not_le.mp hfirst)
      exact h
    have hdigits : (61 : ℚ) * 10000 ^ w ≤ us * 100 := by exact_mod_cast hdigits
    rw [zpow_sub₀ (by norm_num), zpow_natCast]
    norm_num
    linarith

theorem pow_divScale_ge {us : Nat} (hus : us ≠ 0) : (10 : ℚ) ^ 16 ≤ us / 60000000 * 10 ^ divScale us := by
  have hweight := pow_quotientWeight_le (Nat.pow_log_le_self 10000 (show us * 100 ≠ 0 by omega))
  unfold divScale
  dsimp only
  generalize (if us * 100 / 10000 ^ Nat.log 10000 (us * 100) ≤ 60 then _ else _ : Int) = weight at *
  have hscale : (10 : ℚ) ^ (16 - weight * 4) ≤ 10 ^ (max (16 - weight * 4) 6).toNat := by
    rw [← zpow_natCast]
    exact zpow_le_zpow_right₀ (by norm_num) (by omega)
  have hbase : (10000 : ℚ) ^ weight = 10 ^ (weight * 4) := by
    rw [mul_comm, zpow_mul]
    norm_num
  calc (10 : ℚ) ^ 16
      = 10 ^ (weight * 4) * 10 ^ (16 - weight * 4) := by
        rw [← zpow_add₀ (by norm_num)]
        norm_num
    _ ≤ us / 60000000 * 10 ^ (max (16 - weight * 4) 6).toNat :=
        mul_le_mul (hbase ▸ hweight) hscale (zpow_nonneg (by norm_num) _) (by positivity)

theorem abs_durationMinutes_sub_le {interval : Time} (hinterval : 0 ≤ interval)
    : |durationMinutes interval - interval / 60000000| ≤ interval / 60000000 / 10 ^ 16 := by
  obtain ⟨us, rfl⟩ := Int.eq_ofNat_of_zero_le hinterval
  have hround := abs_numericRound_sub_le (divScale us) (q := (us : ℚ) / 60000000) (by positivity)
  by_cases hus : us = 0
  . subst hus
    norm_num [durationMinutes, numericRound]
  . have hscale := pow_divScale_ge hus
    have hpow : (0 : ℚ) < 10 ^ divScale us := by positivity
    unfold durationMinutes
    rw [Int.natAbs_natCast, Int.cast_natCast]
    refine hround.trans ?_
    rw [div_le_div_iff₀ hpow (by norm_num)]
    linarith

theorem abs_nearest_durationMinutes_sub_le {interval : Time} (hinterval : 0 ≤ interval)
    : |nearest (durationMinutes interval) - interval / 60000000| ≤ interval / 60000000 * (3 / 10 ^ 16) := by
  have hexact : (0 : ℚ) ≤ interval / 60000000 := div_nonneg (Int.cast_nonneg hinterval) (by norm_num)
  have hminutes := abs_le.mp (abs_durationMinutes_sub_le hinterval)
  generalize (interval : ℚ) / 60000000 = exact at *
  have hnonneg : 0 ≤ durationMinutes interval := by linarith
  have hnearest := abs_le.mp (abs_nearest_sub_le (durationMinutes interval))
  rw [abs_of_nonneg hnonneg] at hnearest
  rw [abs_le]
  constructor <;> linarith

theorem abs_durationProduct_sub_le {interval : Time} (hinterval : 0 ≤ interval)
    : |nearest (nearest (durationMinutes interval) * 60) - interval / 1000000| ≤
        interval / 1000000 * (5 / 10 ^ 16) := by
  have hminutes := abs_le.mp (abs_nearest_durationMinutes_sub_le hinterval)
  have hexact : (0 : ℚ) ≤ interval / 60000000 := div_nonneg (Int.cast_nonneg hinterval) (by norm_num)
  have hsixty : (interval : ℚ) / 1000000 = interval / 60000000 * 60 := by ring
  rw [hsixty]
  generalize (interval : ℚ) / 60000000 = exact at *
  generalize nearest (durationMinutes interval) = minutes at *
  have hnearest := abs_le.mp (abs_nearest_sub_le (minutes * 60))
  rw [abs_of_nonneg (show 0 ≤ minutes * 60 by linarith)] at hnearest
  rw [abs_le]
  constructor <;> linarith

theorem floor_eq_of_near {x : ℚ} {n d : Int} (hd : 0 < d) (hn : ¬ d ∣ n) (hnear : |x - n / d| < 1 / d)
    : ⌊x⌋ = n / d := by
  have hdq : (0 : ℚ) < d := Int.cast_pos.mpr hd
  have hrest : d * (n / d) ≤ n - 1 ∧ n + 1 ≤ d * (n / d) + d := by
    have hne := mt Int.dvd_of_emod_eq_zero hn
    have hnonneg := Int.emod_nonneg n hd.ne'
    have hlt := Int.emod_lt_of_pos n hd
    have hsplit := Int.mul_ediv_add_emod n d
    omega
  have hlow : (d : ℚ) * (n / d : Int) ≤ n - 1 := by exact_mod_cast hrest.1
  have hhigh : (n : ℚ) + 1 ≤ d * (n / d : Int) + d := by exact_mod_cast hrest.2
  have hscaled : |d * x - n| < 1 := by
    have hfactor : d * x - n = d * (x - n / d) := by field_simp
    rw [hfactor, abs_mul, abs_of_pos hdq]
    calc d * |x - n / d| < d * (1 / d) := mul_lt_mul_of_pos_left hnear hdq
      _ = 1 := by field_simp
  have hbounds := abs_lt.mp hscaled
  rw [Int.floor_eq_iff]
  constructor
  . exact le_of_mul_le_mul_left (by linarith) hdq
  . exact lt_of_mul_lt_mul_left (by linarith) hdq.le

/--
The seconds are the whole ones of the period, or one less, which happens to whole seconds only.
-/
theorem durationSeconds_cases {interval : Time} (hinterval : 0 ≤ interval)
    (hbound : interval ≤ seconds (10 ^ 9))
    : durationSeconds interval = interval / seconds 1 ∨
        seconds 1 ∣ interval ∧ durationSeconds interval = interval / seconds 1 - 1 := by
  have hbound : (interval : ℚ) ≤ 10 ^ 15 := by exact_mod_cast hbound
  have hexact : (0 : ℚ) ≤ interval / 1000000 := div_nonneg (Int.cast_nonneg hinterval) (by norm_num)
  have hnear := abs_durationProduct_sub_le hinterval
  have herror : (interval : ℚ) / 1000000 * (5 / 10 ^ 16) < 1 / 1000000 := by linarith
  have hproduct : 0 ≤ nearest (nearest (durationMinutes interval) * 60) := by
    have hlow := (abs_le.mp hnear).1
    linarith
  unfold durationSeconds truncated
  rw [if_pos hproduct]
  by_cases hwhole : seconds 1 ∣ interval
  . obtain ⟨s, rfl⟩ := hwhole
    have hs : (↑(seconds 1 * s) : ℚ) / 1000000 = s := by
      unfold seconds
      push_cast
      ring
    rw [hs] at hnear herror
    rw [Int.mul_ediv_cancel_left s (by decide)]
    have hbounds := abs_lt.mp (hnear.trans_lt herror)
    have hlow : s - 1 ≤ ⌊nearest (nearest (durationMinutes (seconds 1 * s)) * 60)⌋ := by
      rw [Int.le_floor]
      push_cast
      linarith
    have hhigh : ⌊nearest (nearest (durationMinutes (seconds 1 * s)) * 60)⌋ < s + 1 := by
      rw [Int.floor_lt]
      push_cast
      linarith
    rcases (by omega : ⌊nearest (nearest (durationMinutes (seconds 1 * s)) * 60)⌋ = s ∨
        ⌊nearest (nearest (durationMinutes (seconds 1 * s)) * 60)⌋ = s - 1) with heq | heq
    . exact Or.inl heq
    . exact Or.inr ⟨Int.dvd_mul_right _ _, heq⟩
  . exact Or.inl (floor_eq_of_near (by decide) hwhole (hnear.trans_lt herror))

example : durationSeconds (seconds 123) = 122 := by decide +kernel

theorem floor_durationMinutes {interval : Time} (hinterval : 0 ≤ interval)
    (hbound : interval ≤ seconds (10 ^ 9))
    : ⌊nearest (durationMinutes interval)⌋ = interval / seconds 60 := by
  have hbound : (interval : ℚ) ≤ 10 ^ 15 := by exact_mod_cast hbound
  have hnear := abs_nearest_durationMinutes_sub_le hinterval
  by_cases hwhole : seconds 60 ∣ interval
  . obtain ⟨n, rfl⟩ := hwhole
    have hn : 0 ≤ n := (mul_nonneg_iff_of_pos_left (by decide)).mp hinterval
    have hminutes : durationMinutes (seconds 60 * n) = n := by
      have hexact : (↑(seconds 60 * n) : ℚ) / 60000000 = n := by
        push_cast [seconds]
        ring
      unfold durationMinutes
      rw [hexact]
      exact numericRound_intCast _ hn
    have hsmall : |n| < 2 ^ 53 := by
      rw [abs_of_nonneg hn]
      have hbound : 60 * 1000000 * n ≤ 10 ^ 15 := by exact_mod_cast hbound
      omega
    rw [hminutes, nearest_intCast hsmall, Int.floor_intCast, Int.mul_ediv_cancel_left n (by decide)]
  . exact floor_eq_of_near (by decide) hwhole (hnear.trans_lt (by push_cast [seconds]; linarith))

end PowerMonitor
