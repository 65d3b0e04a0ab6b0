import Mathlib.Data.Int.Log
import Mathlib.Data.Rat.Floor
import Mathlib.Tactic.FieldSimp
import Mathlib.Tactic.Linarith
import Mathlib.Tactic.Positivity
import Mathlib.Tactic.Ring

/-!
This module contains the rounding of a rational number to a double, for numbers whose exponent is in range.
-/

namespace Binary64

def roundHalfEven (q : ℚ) : ℤ :=
  let low := ⌊q⌋
  if q - low < 1 / 2 then low
  else if 1 / 2 < q - low then low + 1
  else if low % 2 = 0 then low
  else low + 1

/--
The distance of the doubles at `q`, which have 53 significant digits.
-/
def ulp (q : ℚ) : ℚ := 2 ^ (Int.log 2 |q| - 52)

def nearest (q : ℚ) : ℚ := roundHalfEven (q / ulp q) * ulp q

theorem ulp_pos (q : ℚ) : 0 < ulp q := by
  unfold ulp
  exact zpow_pos two_pos _

theorem ulp_le {q : ℚ} (hq : q ≠ 0) : ulp q ≤ |q| / 2 ^ 52 := by
  have hlog := Int.zpow_log_le_self (b := 2) (by norm_num) (abs_pos.mpr hq)
  unfold ulp
  rw [zpow_sub₀ two_ne_zero]
  exact div_le_div_of_nonneg_right hlog (by positivity)

theorem abs_roundHalfEven_sub_le (q : ℚ) : |roundHalfEven q - q| ≤ 1 / 2 := by
  have hfloor := Int.floor_le q
  have hlt := Int.lt_floor_add_one q
  unfold roundHalfEven
  dsimp only
  split
  . rw [abs_le]
    constructor <;> linarith
  . split
    . rw [abs_le]
      push_cast
      constructor <;> linarith
    . split
      . rw [abs_le]
        constructor <;> linarith
      . rw [abs_le]
        push_cast
        constructor <;> linarith

theorem abs_nearest_sub_le (q : ℚ) : |nearest q - q| ≤ |q| / 2 ^ 53 := by
  by_cases hq : q = 0
  . subst hq
    simp [nearest, roundHalfEven]
  . have hpos := ulp_pos q
    have hcancel : q / ulp q * ulp q = q := by field_simp
    have hscale : nearest q - q = (roundHalfEven (q / ulp q) - q / ulp q) * ulp q := by
      unfold nearest
      rw [sub_mul, hcancel]
    have hround := abs_roundHalfEven_sub_le (q / ulp q)
    calc |nearest q - q|
        = |roundHalfEven (q / ulp q) - q / ulp q| * ulp q := by
          rw [hscale, abs_mul, abs_of_pos hpos]
      _ ≤ 1 / 2 * ulp q := mul_le_mul_of_nonneg_right hround hpos.le
      _ ≤ 1 / 2 * (|q| / 2 ^ 52) := mul_le_mul_of_nonneg_left (ulp_le hq) (by norm_num)
      _ = |q| / 2 ^ 53 := by ring

theorem roundHalfEven_intCast (n : ℤ) : roundHalfEven n = n := by
  simp [roundHalfEven]

theorem nearest_intCast {n : ℤ} (hn : |n| < 2 ^ 53) : nearest n = n := by
  by_cases hzero : n = 0
  . subst hzero
    simp [nearest, roundHalfEven]
  . have hlog : Int.log 2 |(n : ℚ)| ≤ 52 := by
      have hpos : 0 < |(n : ℚ)| := abs_pos.mpr (Int.cast_ne_zero.mpr hzero)
      have hlow := Int.zpow_log_le_self (b := 2) (by norm_num) hpos
      have hlt : |(n : ℚ)| < 2 ^ (53 : ℤ) := by exact_mod_cast hn
      have hpow := (zpow_lt_zpow_iff_right₀ (one_lt_two : (1 : ℚ) < 2)).mp (hlow.trans_lt hlt)
      omega
    -- the number is a multiple of the last place
    obtain ⟨k, hk⟩ := Int.eq_ofNat_of_zero_le (show 0 ≤ 52 - Int.log 2 |(n : ℚ)| by omega)
    have hulp : ulp n = (2 ^ k : ℚ)⁻¹ := by
      unfold ulp
      rw [← zpow_natCast, ← zpow_neg, ← hk]
      congr 1
      omega
    have hscaled : (n : ℚ) / ulp n = (n * 2 ^ k : ℤ) := by
      rw [hulp, div_inv_eq_mul]
      push_cast
      rfl
    unfold nearest
    rw [hscaled, roundHalfEven_intCast, ← hscaled, div_mul_cancel₀ _ (ulp_pos n).ne']

end Binary64
