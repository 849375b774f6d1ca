import Solgem.AdcRange
import Solgem.Bench
import Solgem.Lib.Pulse

set_option autoImplicit false

namespace Solgem

open Lib

-- When the pulse is highest, in each of the two models.
noncomputable def peakTime (tau0 tau1 : ℝ) : ℝ := if tau1 < 0 then tau0 else tau0 * Real.log (1 + tau1 / tau0)

-- The model of the silicon chip.
theorem pulse_shape_sid (A Tp : ℝ) (charge : 0 < A) (shaping : 0 < Tp) : Pulse (fun t => pulseShapeSiD t A Tp) A Tp := by
  have size : 0 < A / Tp / Tp := div_pos (div_pos charge shaping) shaping
  have pulse := clipped_pulse _ _ _ _ (gamma_curve (A / Tp / Tp) Tp size shaping)
  have total : -(-(A / Tp / Tp * (Tp * (0 + Tp) * Real.exp (-(Tp⁻¹ * 0))))) = A := by
    rw [mul_zero, neg_zero, Real.exp_zero]
    field_simp
    ring
  rw [total] at pulse
  have shape : (fun t => pulseShapeSiD t A Tp) =
      fun t => if 0 < A / Tp / Tp * (t * Real.exp (-(Tp⁻¹ * t))) then A / Tp / Tp * (t * Real.exp (-(Tp⁻¹ * t))) else 0 := by
    funext t
    have zero : (0.0 : ℝ) = 0 := by norm_num
    have value : A / Tp * (t / Tp) * Real.exp (-(t / Tp)) = A / Tp / Tp * (t * Real.exp (-(Tp⁻¹ * t))) := by
      rw [show t / Tp = Tp⁻¹ * t by ring]
      ring
    change (if (0.0 : ℝ) < A / Tp * (t / Tp) * Real.exp (-(t / Tp)) then A / Tp * (t / Tp) * Real.exp (-(t / Tp)) else 0.0) = _
    rw [zero, value]
  rw [shape]
  exact pulse

-- The model with two time constants is the difference of two decays.
theorem pulse_shape_gem (A tau0 tau1 : ℝ) (charge : 0 < A) (rise : 0 < tau0) (decay : 0 < tau1) :
    Pulse (fun t => pulseShape t A tau0 tau1) A (tau0 * Real.log (1 + tau1 / tau0)) := by
  have sum : 0 < tau0 + tau1 := add_pos rise decay
  have size : 0 < A * ((tau0 + tau1) / tau1 / tau1) := mul_pos charge (div_pos (div_pos sum decay) decay)
  have slow : 0 < tau1⁻¹ := inv_pos.mpr decay
  have fast : tau1⁻¹ < tau0⁻¹ + tau1⁻¹ := lt_add_of_pos_left _ (inv_pos.mpr rise)
  have pulse := clipped_pulse _ _ _ _ (decays_curve _ tau1⁻¹ (tau0⁻¹ + tau1⁻¹) size slow fast)
  have total : -(A * ((tau0 + tau1) / tau1 / tau1) * ((tau0⁻¹ + tau1⁻¹)⁻¹ * Real.exp (-((tau0⁻¹ + tau1⁻¹) * 0)) -
      tau1⁻¹⁻¹ * Real.exp (-(tau1⁻¹ * 0)))) = A := by
    rw [mul_zero, mul_zero, neg_zero, Real.exp_zero]
    field_simp
    ring
  have peak : (tau0⁻¹ + tau1⁻¹ - tau1⁻¹)⁻¹ * Real.log ((tau0⁻¹ + tau1⁻¹) * tau1⁻¹⁻¹) = tau0 * Real.log (1 + tau1 / tau0) := by
    rw [add_sub_cancel_right, inv_inv, inv_inv, add_mul, inv_mul_cancel₀ decay.ne', inv_mul_eq_div, add_comm, mul_comm]
  rw [total, peak] at pulse
  have shape : (fun t => pulseShape t A tau0 tau1) = fun t =>
      if 0 < A * ((tau0 + tau1) / tau1 / tau1) * (Real.exp (-(tau1⁻¹ * t)) - Real.exp (-((tau0⁻¹ + tau1⁻¹) * t))) then
        A * ((tau0 + tau1) / tau1 / tau1) * (Real.exp (-(tau1⁻¹ * t)) - Real.exp (-((tau0⁻¹ + tau1⁻¹) * t))) else 0 := by
    funext t
    have zero : (0.0 : ℝ) = 0 := by norm_num
    have one : (1.0 : ℝ) = 1 := by norm_num
    have value : (1 - Real.exp (-t / tau0)) * Real.exp (-t / tau1) = Real.exp (-(tau1⁻¹ * t)) - Real.exp (-((tau0⁻¹ + tau1⁻¹) * t)) := by
      rw [sub_mul, one_mul, ← Real.exp_add]
      congr 2 <;> ring
    rw [← value, ← mul_assoc]
    change (if tau1 < 0.0 then _ else if 0.0 < A * ((tau0 + tau1) / tau1 / tau1) * (1.0 - Real.exp (-t / tau0)) * Real.exp (-t / tau1) then
      A * ((tau0 + tau1) / tau1 / tau1) * (1.0 - Real.exp (-t / tau0)) * Real.exp (-t / tau1) else 0.0) = _
    rw [zero, one, if_neg decay.not_gt]
  rw [shape]
  exact pulse

theorem pulse_shape_pulse (A tau0 tau1 : ℝ) (charge : 0 < A) (rise : 0 < tau0) (decay : tau1 ≠ 0) :
    Pulse (fun t => pulseShape t A tau0 tau1) A (peakTime tau0 tau1) := by
  rcases decay.lt_or_gt with silicon | gem
  · have model : (fun t => pulseShape t A tau0 tau1) = fun t => pulseShapeSiD t A tau0 := by
      funext t
      have zero : (0.0 : ℝ) = 0 := by norm_num
      rw [pulseShape, zero, if_pos silicon]
    rw [model, peakTime, if_pos silicon]
    exact pulse_shape_sid A tau0 charge rise
  · rw [peakTime, if_neg gem.not_gt]
    exact pulse_shape_gem A tau0 tau1 charge rise gem

-- The converter is exact unless a pedestal wraps below the range of Short_t.
theorem adc_convert_reads (off gain : ℝ) (bits : Nat) (positive : 0 < gain) (width : bits ≤ 15) (pedestal : off ≤ 32768 * gain)
    (val : ℝ) : adcConvert val off gain bits = adcReading val off gain bits := by
  refine (adc_correct_iff val off gain bits width).mpr ?_
  by_cases nonneg : 0 ≤ adcFloor val off gain
  · exact .inl nonneg
  · have low : -32768 ≤ adcFloor val off gain := by
      rw [adcFloor, Int.le_floor, le_div_iff₀ positive]
      push_cast
      linarith [le_max_right val 0]
    rw [int16_exact _ low (by omega)]
    exact .inr (by omega)

-- The samples of a strip's charge: nothing before the pulse starts, then they
-- never fall up to its peak and never rise after it, and the pulse holds the
-- charge.
theorem strip_samples_pulse (par : Params ℝ) (t0 us : ℝ) (charge : 0 < us) (rise : 0 < par.fPulseShapeTau0)
    (decay : par.fPulseShapeTau1 ≠ 0) (period : 0 ≤ par.fEleSamplingPeriod) (gain : 0 < par.fADCgain)
    (pedestal : par.fADCoffset ≤ 32768 * par.fADCgain) :
    let time (b : Nat) := par.fEleSamplingPeriod * b - t0
    let peak := peakTime par.fPulseShapeTau0 par.fPulseShapeTau1
    Pulse (fun t => pulseShape t us par.fPulseShapeTau0 par.fPulseShapeTau1) us peak ∧
      (∀ b, time b ≤ 0 → sampleADC par t0 us b = adcConvert 0 par.fADCoffset par.fADCgain par.fADCbits) ∧
      (∀ b b', b ≤ b' → time b' ≤ peak → sampleADC par t0 us b ≤ sampleADC par t0 us b') ∧
      ∀ b b', b ≤ b' → peak ≤ time b → sampleADC par t0 us b' ≤ sampleADC par t0 us b := by
  intro time peak
  have pulse := pulse_shape_pulse us par.fPulseShapeTau0 par.fPulseShapeTau1 charge rise decay
  have sampled (b : Nat) : sampleADC par t0 us b =
      adcConvert (pulseShape (time b) us par.fPulseShapeTau0 par.fPulseShapeTau1) par.fADCoffset par.fADCgain par.fADCbits := by
    rw [sampleADC, show par.fEleSamplingPeriod * Arith.ofInt (b : Int) - t0 = time b from
      congrArg (fun n : ℝ => par.fEleSamplingPeriod * n - t0) (Int.cast_natCast b)]
  have ordered (b b' : Nat) (later : b ≤ b') : time b ≤ time b' :=
    sub_le_sub_right (mul_le_mul_of_nonneg_left (Nat.cast_le.mpr later) period) t0
  have converted (val val' : ℝ) (below : val ≤ val') : adcConvert val par.fADCoffset par.fADCgain par.fADCbits ≤
      adcConvert val' par.fADCoffset par.fADCgain par.fADCbits := by
    rw [adc_convert_reads _ _ _ gain par.adc_bits.2 pedestal val, adc_convert_reads _ _ _ gain par.adc_bits.2 pedestal val']
    exact adc_reading_monotone _ _ gain _ below
  refine ⟨pulse, fun b before => ?_, fun b b' later before => ?_, fun b b' later after => ?_⟩
  · rw [sampled, pulse.early _ before]
  · rw [sampled, sampled]
    refine converted _ _ ?_
    by_cases started : 0 ≤ time b
    · exact pulse.rises.monotoneOn ⟨started, (ordered b b' later).trans before⟩ ⟨started.trans (ordered b b' later), before⟩
        (ordered b b' later)
    · rw [pulse.early _ (not_le.mp started).le]
      rcases le_or_gt (time b') 0 with early | positive
      · rw [pulse.early _ early]
      · exact (pulse.later _ positive).le
  · rw [sampled, sampled]
    exact converted _ _ (pulse.falls.antitoneOn after (after.trans (ordered b b' later)) (ordered b b' later))

theorem strip_samples_pulse_bench :
    Pulse (fun t => pulseShape t 1 (bench 1 1).par.fPulseShapeTau0 (bench 1 1).par.fPulseShapeTau1) 1
        (peakTime (bench 1 1).par.fPulseShapeTau0 (bench 1 1).par.fPulseShapeTau1) ∧
      sampleADC (bench 1 1).par 0 1 0 = adcConvert 0 (bench 1 1).par.fADCoffset (bench 1 1).par.fADCgain (bench 1 1).par.fADCbits := by
  obtain ⟨pulse, early, _⟩ := strip_samples_pulse (bench 1 1).par 0 1 one_pos (by norm_num [bench]) (by norm_num [bench])
    (by norm_num [bench])
    (by norm_num [bench]) (by norm_num [bench])
  exact ⟨pulse, early 0 (by norm_num [bench])⟩

end Solgem
