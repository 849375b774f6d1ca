import Mathlib.Analysis.Calculus.Deriv.MeanValue
import Mathlib.Analysis.SpecialFunctions.ExpDeriv
import Mathlib.Analysis.SpecialFunctions.Log.Basic
import Mathlib.MeasureTheory.Integral.IntegralEqImproper

set_option autoImplicit false

namespace Solgem.Lib

open MeasureTheory

-- A signal that starts at 0, rises to its peak and falls from there on, with
-- this total.
structure Pulse (v : ℝ → ℝ) (total peak : ℝ) : Prop where
  early : ∀ t ≤ 0, v t = 0
  later : ∀ t, 0 < t → 0 < v t
  integrable : Integrable v
  total : ∫ t, v t = total
  rises : StrictMonoOn v (Set.Icc 0 peak)
  falls : StrictAntiOn v (Set.Ici peak)

-- A curve with its slope and an antiderivative that vanishes at infinity.
structure PulseCurve (g slope area : ℝ → ℝ) (peak : ℝ) : Prop where
  sloped : ∀ t, HasDerivAt g (slope t) t
  filled : ∀ t, HasDerivAt area (g t) t
  tail : Filter.Tendsto area Filter.atTop (nhds 0)
  early : ∀ t ≤ 0, g t ≤ 0
  later : ∀ t, 0 < t → 0 < g t
  start : 0 < peak
  rises : ∀ t < peak, 0 < slope t
  falls : ∀ t, peak < t → slope t < 0

-- What is left of a curve when its negative values are cut off.
theorem clipped_pulse (g slope area : ℝ → ℝ) (peak : ℝ) (curve : PulseCurve g slope area peak) :
    Pulse (fun t => if 0 < g t then g t else 0) (-area 0) peak := by
  have clipped : (fun t => if 0 < g t then g t else 0) = Set.indicator (Set.Ioi 0) g := by
    funext t
    by_cases positive : 0 < t
    · rw [if_pos (curve.later t positive), Set.indicator_of_mem (Set.mem_Ioi.mpr positive)]
    · have outside : t ∉ Set.Ioi (0 : ℝ) := positive
      rw [if_neg (not_lt.mpr (curve.early t (not_lt.mp positive))), Set.indicator_of_notMem outside]
  have continuous : Continuous g := continuous_iff_continuousAt.mpr fun t => (curve.sloped t).continuousAt
  have zero : g 0 = 0 := by
    refine le_antisymm (curve.early 0 le_rfl) ?_
    refine ge_of_tendsto (continuous.continuousWithinAt (s := Set.Ioi 0)) ?_
    exact Filter.eventually_of_mem self_mem_nhdsWithin fun t positive => (curve.later t positive).le
  have shown (t : ℝ) (after : 0 ≤ t) : Set.indicator (Set.Ioi 0) g t = g t := by
    rcases after.eq_or_lt with start | positive
    · rw [← start, Set.indicator_of_notMem (Set.notMem_Ioi.mpr le_rfl), zero]
    · exact Set.indicator_of_mem (Set.mem_Ioi.mpr positive) g
  have nonneg : ∀ t ∈ Set.Ioi (0 : ℝ), 0 ≤ g t := fun t inside => (curve.later t inside).le
  rw [clipped]
  constructor
  · exact fun t before => Set.indicator_of_notMem (fun inside => not_lt.mpr before inside) g
  · intro t positive
    rw [shown t positive.le]
    exact curve.later t positive
  · rw [integrable_indicator_iff measurableSet_Ioi]
    exact integrableOn_Ioi_deriv_of_nonneg' (fun t _ => curve.filled t) nonneg curve.tail
  · rw [integral_indicator measurableSet_Ioi,
      integral_Ioi_of_hasDerivAt_of_nonneg' (fun t _ => curve.filled t) nonneg curve.tail, zero_sub]
  · have rising : StrictMonoOn g (Set.Icc 0 peak) := by
      refine strictMonoOn_of_deriv_pos (convex_Icc 0 peak) continuous.continuousOn fun t inside => ?_
      rw [interior_Icc] at inside
      rw [(curve.sloped t).deriv]
      exact curve.rises t inside.2
    exact fun a ina b inb below => by
      rw [shown a ina.1, shown b inb.1]
      exact rising ina inb below
  · have falling : StrictAntiOn g (Set.Ici peak) := by
      refine strictAntiOn_of_deriv_neg (convex_Ici peak) continuous.continuousOn fun t inside => ?_
      rw [interior_Ici] at inside
      rw [(curve.sloped t).deriv]
      exact curve.falls t inside
    exact fun a ina b inb below => by
      rw [shown a (curve.start.le.trans ina), shown b (curve.start.le.trans inb)]
      exact falling ina inb below

theorem exp_slope (a t : ℝ) : HasDerivAt (fun t => Real.exp (-(a * t))) (-a * Real.exp (-(a * t))) t := by
  have inner : HasDerivAt (fun t => -(a * t)) (-(a * 1)) t := ((hasDerivAt_id t).const_mul a).neg
  refine inner.exp.congr_deriv ?_
  ring

theorem exp_tail (a : ℝ) (positive : 0 < a) : Filter.Tendsto (fun t => Real.exp (-(a * t))) Filter.atTop (nhds 0) :=
  Real.tendsto_exp_neg_atTop_nhds_zero.comp (Filter.tendsto_id.const_mul_atTop positive)

-- The difference of a slow and a fast decay.
theorem decays_curve (c a b : ℝ) (size : 0 < c) (slow : 0 < a) (fast : a < b) :
    PulseCurve (fun t => c * (Real.exp (-(a * t)) - Real.exp (-(b * t))))
      (fun t => c * (b * Real.exp (-(b * t)) - a * Real.exp (-(a * t))))
      (fun t => c * (b⁻¹ * Real.exp (-(b * t)) - a⁻¹ * Real.exp (-(a * t)))) ((b - a)⁻¹ * Real.log (b * a⁻¹)) := by
  rw [inv_mul_eq_div, ← div_eq_mul_inv]
  have quick : 0 < b := slow.trans fast
  have apart : 0 < b - a := sub_pos.mpr fast
  -- The two decays cross where the slope vanishes.
  have order (t : ℝ) : a * Real.exp (-(a * t)) < b * Real.exp (-(b * t)) ↔ t < Real.log (b / a) / (b - a) := by
    have ratio : a * Real.exp (-(a * t)) < b * Real.exp (-(b * t)) ↔ Real.exp ((b - a) * t) < b / a := by
      rw [lt_div_iff₀ slow, show (b - a) * t = -(a * t) - -(b * t) by ring, Real.exp_sub, div_mul_eq_mul_div,
        div_lt_iff₀ (Real.exp_pos _), mul_comm (Real.exp _) a]
    rw [ratio, ← Real.lt_log_iff_exp_lt (div_pos quick slow), lt_div_iff₀ apart, mul_comm]
  have order' (t : ℝ) : b * Real.exp (-(b * t)) < a * Real.exp (-(a * t)) ↔ Real.log (b / a) / (b - a) < t := by
    have ratio : b * Real.exp (-(b * t)) < a * Real.exp (-(a * t)) ↔ b / a < Real.exp ((b - a) * t) := by
      rw [div_lt_iff₀ slow, show (b - a) * t = -(a * t) - -(b * t) by ring, Real.exp_sub, div_mul_eq_mul_div,
        lt_div_iff₀ (Real.exp_pos _), mul_comm (Real.exp _) a]
    rw [ratio, ← Real.log_lt_iff_lt_exp (div_pos quick slow), div_lt_iff₀ apart, mul_comm]
  constructor
  · intro t
    refine (((exp_slope a t).sub (exp_slope b t)).const_mul c).congr_deriv ?_
    ring
  · intro t
    refine ((((exp_slope b t).const_mul b⁻¹).sub ((exp_slope a t).const_mul a⁻¹)).const_mul c).congr_deriv ?_
    field_simp
    ring
  · have slow_tail := (exp_tail a slow).const_mul a⁻¹
    have fast_tail := (exp_tail b quick).const_mul b⁻¹
    simpa using (fast_tail.sub slow_tail).const_mul c
  · intro t before
    have below : -(a * t) ≤ -(b * t) := by nlinarith
    have decayed := Real.exp_le_exp.mpr below
    nlinarith
  · intro t after
    have above : -(b * t) < -(a * t) := by nlinarith
    have decayed := Real.exp_lt_exp.mpr above
    nlinarith
  · exact div_pos (Real.log_pos ((one_lt_div slow).mpr fast)) apart
  · intro t before
    have rising := (order t).mpr before
    exact mul_pos size (sub_pos.mpr rising)
  · intro t after
    have falling := (order' t).mpr after
    exact mul_neg_of_pos_of_neg size (sub_neg.mpr falling)

-- A decay that time itself rises against.
theorem gamma_curve (c T : ℝ) (size : 0 < c) (shaping : 0 < T) :
    PulseCurve (fun t => c * (t * Real.exp (-(T⁻¹ * t)))) (fun t => c * ((1 - T⁻¹ * t) * Real.exp (-(T⁻¹ * t))))
      (fun t => -(c * (T * (t + T) * Real.exp (-(T⁻¹ * t))))) T := by
  have rate : 0 < T⁻¹ := inv_pos.mpr shaping
  have unit : T⁻¹ * T = 1 := inv_mul_cancel₀ shaping.ne'
  constructor
  · intro t
    refine (((hasDerivAt_id t).mul (exp_slope T⁻¹ t)).const_mul c).congr_deriv ?_
    simp only [id_eq]
    ring
  · intro t
    have linear : HasDerivAt (fun t => T * (t + T)) T t := by
      simpa using ((hasDerivAt_id t).add_const T).const_mul T
    refine ((linear.mul (exp_slope T⁻¹ t)).const_mul c).neg.congr_deriv ?_
    field_simp
    ring
  · have scaled : Filter.Tendsto (fun t => T⁻¹ * t) Filter.atTop Filter.atTop := Filter.tendsto_id.const_mul_atTop rate
    have first := (Real.tendsto_pow_mul_exp_neg_atTop_nhds_zero 1).comp scaled
    have second := exp_tail T⁻¹ rate
    have both := ((first.add second).const_mul (c * (T * T))).neg
    simp only [add_zero, mul_zero, neg_zero] at both
    refine both.congr fun t => ?_
    simp only [Function.comp_apply, pow_one]
    field_simp
  · intro t before
    exact mul_nonpos_of_nonneg_of_nonpos size.le (mul_nonpos_of_nonpos_of_nonneg before (Real.exp_pos _).le)
  · exact fun t after => mul_pos size (mul_pos after (Real.exp_pos _))
  · exact shaping
  · intro t before
    have below : T⁻¹ * t < 1 := by
      rw [← unit]
      exact mul_lt_mul_of_pos_left before rate
    exact mul_pos size (mul_pos (sub_pos.mpr below) (Real.exp_pos _))
  · intro t after
    have above : 1 < T⁻¹ * t := by
      rw [← unit]
      exact mul_lt_mul_of_pos_left after rate
    exact mul_neg_of_pos_of_neg size (mul_neg_of_neg_of_pos (sub_neg.mpr above) (Real.exp_pos _))

end Solgem.Lib
