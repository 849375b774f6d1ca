import Solgem.AvaModel
import Solgem.ExactArith

set_option autoImplicit false

namespace Solgem

open Lib

-- floor((max(val,0) - off)/gain), before any limit.
noncomputable def adcFloor (val off gain : ℝ) : Int := ⌊(max val 0 - off) / gain⌋

-- What a saturating converter reads.
noncomputable def adcReading (val off gain : ℝ) (bits : Nat) : Int := max 0 (min (2 ^ bits - 1) (adcFloor val off gain))

theorem adc_convert_cast (val off gain : ℝ) (bits : Nat) :
    adcConvert val off gain bits = max 0 (toInt16 (min (2 ^ bits - 1) (adcFloor val off gain))) := by
  have positive : (if val < 0.0 then (0.0 : ℝ) else val) = max val 0 := by
    by_cases neg : val < 0
    · rw [if_pos (by norm_num; exact neg), max_eq_right neg.le]
      norm_num
    · rw [if_neg (by norm_num; exact not_lt.mp neg), max_eq_left (not_lt.mp neg)]
  have limited : ∀ x : ℝ, (Arith.trunc (Arith.floor (min (Arith.ofInt (2 ^ bits - 1)) x)) : Int) =
      min (2 ^ bits - 1) ⌊x⌋ := by
    intro x
    have whole : ⌊min (((2 ^ bits - 1 : Int) : ℝ)) x⌋ = min (2 ^ bits - 1) ⌊x⌋ := by
      cases le_total (((2 ^ bits - 1 : Int) : ℝ)) x with
      | inl beyond => rw [min_eq_left beyond, Int.floor_intCast, min_eq_left (Int.le_floor.mpr beyond)]
      | inr under =>
          have below : ⌊x⌋ ≤ (2 ^ bits - 1 : Int) := by
            have := (Int.floor_le x).trans under
            exact_mod_cast this
          rw [min_eq_right under, min_eq_right below]
    exact (trunc_whole _).trans whole
  have saturated : ∀ x : ℝ, (if (Arith.ofInt (2 ^ bits - 1) : ℝ) < x then (Arith.ofInt (2 ^ bits - 1) : ℝ) else x) =
      min (Arith.ofInt (2 ^ bits - 1)) x := by
    intro x
    by_cases beyond : (Arith.ofInt (2 ^ bits - 1) : ℝ) < x
    · rw [if_pos beyond, min_eq_left beyond.le]
    · rw [if_neg beyond, min_eq_right (not_lt.mp beyond)]
  have nonneg : ∀ n : Int, (if n < 0 then 0 else n) = max 0 n := by
    intro n
    split <;> omega
  simp only [adcConvert, saturated, positive, nonneg]
  rw [← min_assoc, min_self, limited, adcFloor]

-- The limits commute with the cast at and above zero; below zero the low 16
-- bits of the floor are what is left to compare with zero.
theorem adc_convert_cases (val off gain : ℝ) (bits : Nat) (width : bits ≤ 15) :
    adcConvert val off gain bits =
      if 0 ≤ adcFloor val off gain then adcReading val off gain bits else max 0 (toInt16 (adcFloor val off gain)) := by
  have low : (1 : Int) ≤ 2 ^ bits := one_le_pow₀ (by decide)
  have high : (2 : Int) ^ bits ≤ 2 ^ 15 := pow_le_pow_right₀ (by decide) width
  rw [adc_convert_cast, adcReading]
  split
  · rw [int16_exact _ (by omega) (by omega)]
  · rw [min_eq_right (by omega)]

theorem adc_correct_iff (val off gain : ℝ) (bits : Nat) (width : bits ≤ 15) :
    adcConvert val off gain bits = adcReading val off gain bits ↔
      0 ≤ adcFloor val off gain ∨ toInt16 (adcFloor val off gain) ≤ 0 := by
  rw [adc_convert_cases val off gain bits width]
  by_cases nonneg : 0 ≤ adcFloor val off gain
  · rw [if_pos nonneg]
    exact iff_of_true rfl (.inl nonneg)
  · have low : (1 : Int) ≤ 2 ^ bits := one_le_pow₀ (by decide)
    have zero : adcReading val off gain bits = 0 := by
      rw [adcReading]
      omega
    rw [if_neg nonneg, zero]
    omega

theorem adc_reading_range (val off gain : ℝ) (bits : Nat) :
    0 ≤ adcReading val off gain bits ∧ adcReading val off gain bits ≤ 2 ^ bits - 1 := by
  have low : (1 : Int) ≤ 2 ^ bits := one_le_pow₀ (by decide)
  rw [adcReading]
  omega

theorem adc_floor_monotone (off gain : ℝ) (gain_pos : 0 < gain) : Monotone (fun val => adcFloor val off gain) := by
  intro val val' le
  apply Int.floor_le_floor
  have signal : max val 0 - off ≤ max val' 0 - off := sub_le_sub_right (max_le_max_right 0 le) off
  exact div_le_div_of_nonneg_right signal gain_pos.le

theorem adc_reading_monotone (off gain : ℝ) (gain_pos : 0 < gain) (bits : Nat) :
    Monotone (fun val => adcReading val off gain bits) := by
  intro val val' le
  exact max_le_max_left 0 (min_le_min_left _ (adc_floor_monotone off gain gain_pos le))

-- Every value of the floor from that of -off/gain upwards is reached by some
-- signal, the lowest one by no signal.
theorem adc_floor_reached (off gain : ℝ) (gain_pos : 0 < gain) (n : Int) (above : -off / gain < n + 1) :
    ∃ val, adcFloor val off gain = n := by
  by_cases whole : -off / gain ≤ n
  · have signal : 0 ≤ n * gain + off := by
      have scaled : -off ≤ n * gain := (div_le_iff₀ gain_pos).mp whole
      linarith
    refine ⟨n * gain + off, ?_⟩
    rw [adcFloor, max_eq_left signal, add_sub_cancel_right, mul_div_cancel_right₀ _ gain_pos.ne', Int.floor_intCast]
  · refine ⟨0, ?_⟩
    rw [adcFloor, max_self, zero_sub]
    exact Int.floor_eq_iff.mpr ⟨(not_le.mp whole).le, above⟩

theorem adc_saturates_iff (off gain : ℝ) (bits : Nat) (gain_pos : 0 < gain) (width : bits ≤ 15) :
    (∀ val, adcConvert val off gain bits = adcReading val off gain bits ↔
      0 ≤ adcFloor val off gain ∨ toInt16 (adcFloor val off gain) ≤ 0) ∧
    (((∀ val, 0 ≤ adcConvert val off gain bits ∧ adcConvert val off gain bits ≤ 2 ^ bits - 1 ∧
        adcConvert val off gain bits = adcReading val off gain bits) ∧
      Monotone (fun val => adcConvert val off gain bits)) ↔ off ≤ 32768 * gain) := by
  refine ⟨fun val => adc_correct_iff val off gain bits width, fun correct => ?_, fun bounded => ?_⟩
  · by_contra large
    have above : -off / gain < ((-32769 : Int) : ℝ) + 1 := by
      rw [div_lt_iff₀ gain_pos]
      push_cast
      linarith
    obtain ⟨val, wraps⟩ := adc_floor_reached off gain gain_pos (-32769) above
    cases (adc_correct_iff val off gain bits width).mp (correct.1 val).2.2 with
    | inl nonneg =>
        rw [wraps] at nonneg
        exact absurd nonneg (by decide)
    | inr low =>
        rw [wraps] at low
        exact absurd low (by decide)
  · have exact : ∀ val, adcConvert val off gain bits = adcReading val off gain bits := by
      intro val
      apply (adc_correct_iff val off gain bits width).mpr
      by_cases nonneg : 0 ≤ adcFloor val off gain
      · exact .inl nonneg
      · have low : -32768 ≤ adcFloor val off gain := by
          apply Int.le_floor.mpr
          rw [le_div_iff₀ gain_pos]
          push_cast
          linarith [le_max_right val 0]
        rw [int16_exact _ low (by omega)]
        exact .inr (by omega)
    refine ⟨fun val => ?_, fun val val' le => ?_⟩
    · rw [exact val]
      exact ⟨(adc_reading_range val off gain bits).1, (adc_reading_range val off gain bits).2, rfl⟩
    · change adcConvert val off gain bits ≤ adcConvert val' off gain bits
      rw [exact val, exact val']
      exact adc_reading_monotone off gain gain_pos bits le

theorem small_pedestal_saturates : Monotone (fun val : ℝ => adcConvert val 1000 1 12) :=
  ((adc_saturates_iff 1000 1 12 one_pos (by decide)).2.mpr (by norm_num)).2

-- With an offset of 65535 counts the reading without a signal wraps to 1, and
-- falls to 0 as the signal grows.
theorem pedestal_wraps : adcConvert (0 : ℝ) 65535 1 12 = 1 ∧ adcReading 0 65535 1 12 = 0 ∧
    adcConvert (65535 : ℝ) 65535 1 12 = 0 := by
  have empty : adcFloor 0 65535 1 = -65535 := by
    rw [adcFloor, max_self, zero_sub, div_one, Int.floor_eq_iff]
    norm_num
  have signal : adcFloor 65535 65535 1 = 0 := by
    rw [adcFloor, max_eq_left (by norm_num), sub_self, zero_div, Int.floor_zero]
  refine ⟨?_, ?_, ?_⟩
  · rw [adc_convert_cases _ _ _ _ (by decide), empty]
    decide
  · rw [adcReading, empty]
    decide
  · rw [adc_convert_cases _ _ _ _ (by decide), adcReading, signal]
    decide

end Solgem
