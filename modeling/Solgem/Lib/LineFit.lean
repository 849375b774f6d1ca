import Mathlib.Algebra.BigOperators.Group.List.Basic
import Mathlib.Algebra.Order.BigOperators.Group.List
import Mathlib.Algebra.Order.Field.Basic
import Mathlib.Tactic.FieldSimp
import Mathlib.Tactic.LinearCombination
import Mathlib.Tactic.Linarith
import Mathlib.Tactic.Ring

set_option autoImplicit false

namespace Solgem.Lib

variable {K P : Type} [Field K] [LinearOrder K] [IsStrictOrderedRing K]

-- The weighted fit of a line a + b z to the values x of a list of points.
section
variable (w x z : P → K) (points : List P)

def weightedSum (f : P → K) : K := (points.map (fun p => w p * f p)).sum

def lineResidual (a b : K) : K := weightedSum w points (fun p => (x p - a - b * z p) ^ 2)

structure NormalEquations (a b : K) : Prop where
  value : weightedSum w points (fun _ => 1) * a + weightedSum w points z * b = weightedSum w points x
  slope : weightedSum w points z * a + weightedSum w points (fun p => z p ^ 2) * b = weightedSum w points (fun p => x p * z p)

-- Positive weights, and not all points at one z.
structure Spread : Prop where
  positive : ∀ p ∈ points, 0 < w p
  apart : ∃ p ∈ points, ∃ q ∈ points, z p ≠ z q

end

section
variable {w x z : P → K} {points : List P}

theorem weighted_sum_nonneg (positive : ∀ p ∈ points, 0 < w p) (f : P → K) (nonneg : ∀ p ∈ points, 0 ≤ f p) :
    0 ≤ weightedSum w points f := by
  refine List.sum_nonneg fun term member => ?_
  obtain ⟨p, listed, same⟩ := List.mem_map.mp member
  rw [← same]
  exact mul_nonneg (positive p listed).le (nonneg p listed)

theorem weighted_sum_zero (positive : ∀ p ∈ points, 0 < w p) (f : P → K) (nonneg : ∀ p ∈ points, 0 ≤ f p)
    (zero : weightedSum w points f = 0) : ∀ p ∈ points, f p = 0 := by
  have terms : ∀ term ∈ points.map (fun p => w p * f p), 0 ≤ term := by
    intro term member
    obtain ⟨p, listed, same⟩ := List.mem_map.mp member
    rw [← same]
    exact mul_nonneg (positive p listed).le (nonneg p listed)
  intro p listed
  have none_left := List.all_zero_of_le_zero_le_of_sum_eq_zero terms zero (List.mem_map_of_mem (f := fun p => w p * f p) listed)
  exact (mul_eq_zero.mp none_left).resolve_left (positive p listed).ne'

-- A line that is zero at two different z is zero.
theorem line_zero (spread : Spread w z points) (a b : K)
    (zero : weightedSum w points (fun p => (a + b * z p) ^ 2) = 0) : a = 0 ∧ b = 0 := by
  have vanishes := weighted_sum_zero spread.positive _ (fun p _ => sq_nonneg (a + b * z p)) zero
  obtain ⟨p, first, q, second, apart⟩ := spread.apart
  have atP : a + b * z p = 0 := pow_eq_zero_iff two_ne_zero |>.mp (vanishes p first)
  have atQ : a + b * z q = 0 := pow_eq_zero_iff two_ne_zero |>.mp (vanishes q second)
  have slope : b * (z p - z q) = 0 := by linear_combination atP - atQ
  have flat : b = 0 := (mul_eq_zero.mp slope).resolve_right (sub_ne_zero.mpr apart)
  refine ⟨?_, flat⟩
  rw [flat, zero_mul, add_zero] at atP
  exact atP

omit [LinearOrder K] [IsStrictOrderedRing K] in
theorem residual_expand (w x z : P → K) (points : List P) (a b a' b' : K) :
    lineResidual w x z points a' b' = lineResidual w x z points a b +
      weightedSum w points (fun p => ((a' - a) + (b' - b) * z p) ^ 2) -
      2 * (a' - a) * (weightedSum w points x - weightedSum w points (fun _ => 1) * a - weightedSum w points z * b) -
      2 * (b' - b) * (weightedSum w points (fun p => x p * z p) - weightedSum w points z * a -
        weightedSum w points (fun p => z p ^ 2) * b) := by
  simp only [lineResidual, weightedSum]
  induction points with
  | nil => simp
  | cons p rest ih =>
      simp only [List.map_cons, List.sum_cons]
      linear_combination ih

omit [LinearOrder K] [IsStrictOrderedRing K] in
-- Any other line misses by the squares of its difference more.
theorem residual_split (a b a' b' : K) (normal : NormalEquations w x z points a b) :
    lineResidual w x z points a' b' =
      lineResidual w x z points a b + weightedSum w points (fun p => ((a' - a) + (b' - b) * z p) ^ 2) := by
  rw [residual_expand w x z points a b a' b']
  linear_combination 2 * (a' - a) * normal.value + 2 * (b' - b) * normal.slope

theorem line_fit_least (spread : Spread w z points) (a b : K) (normal : NormalEquations w x z points a b) (a' b' : K) :
    lineResidual w x z points a b ≤ lineResidual w x z points a' b' := by
  rw [residual_split a b a' b' normal]
  have more := weighted_sum_nonneg spread.positive _ (fun p _ => sq_nonneg ((a' - a) + (b' - b) * z p))
  linarith

theorem line_fit_unique (spread : Spread w z points) (a b : K) (normal : NormalEquations w x z points a b) (a' b' : K)
    (least : lineResidual w x z points a' b' ≤ lineResidual w x z points a b) : a' = a ∧ b' = b := by
  rw [residual_split a b a' b' normal] at least
  have more := weighted_sum_nonneg spread.positive _ (fun p _ => sq_nonneg ((a' - a) + (b' - b) * z p))
  obtain ⟨value, slope⟩ := line_zero spread (a' - a) (b' - b) (by linarith)
  exact ⟨sub_eq_zero.mp value, sub_eq_zero.mp slope⟩

omit [LinearOrder K] [IsStrictOrderedRing K] in
theorem square_expand (w z : P → K) (points : List P) (a b : K) :
    weightedSum w points (fun p => (a + b * z p) ^ 2) =
      a ^ 2 * weightedSum w points (fun _ => 1) + 2 * a * b * weightedSum w points z +
        b ^ 2 * weightedSum w points (fun p => z p ^ 2) := by
  simp only [weightedSum]
  induction points with
  | nil => simp
  | cons p rest ih =>
      simp only [List.map_cons, List.sum_cons]
      linear_combination ih

theorem total_weight_pos (spread : Spread w z points) : 0 < weightedSum w points (fun _ => 1) := by
  obtain ⟨p, first, _⟩ := spread.apart
  refine lt_of_le_of_ne (weighted_sum_nonneg spread.positive _ (fun _ _ => zero_le_one)) fun zero => ?_
  exact one_ne_zero (weighted_sum_zero spread.positive (fun _ => (1 : K)) (fun _ _ => zero_le_one) zero.symm p first)

-- The strict Cauchy-Schwarz inequality of 1 and z under the weights: the line
-- through the mean of z is not zero at every point.
theorem normal_determinant_pos (spread : Spread w z points) :
    0 < weightedSum w points (fun _ => 1) * weightedSum w points (fun p => z p ^ 2) - weightedSum w points z ^ 2 := by
  have weight := total_weight_pos spread
  have squares := square_expand w z points (-weightedSum w points z) (weightedSum w points (fun _ => 1))
  have positive : 0 < weightedSum w points
      (fun p => (-weightedSum w points z + weightedSum w points (fun _ => 1) * z p) ^ 2) := by
    refine lt_of_le_of_ne (weighted_sum_nonneg spread.positive _ (fun _ _ => sq_nonneg _)) fun zero => ?_
    exact weight.ne' (line_zero spread _ _ zero.symm).2
  have product : weightedSum w points (fun p => (-weightedSum w points z + weightedSum w points (fun _ => 1) * z p) ^ 2) =
      weightedSum w points (fun _ => 1) *
        (weightedSum w points (fun _ => 1) * weightedSum w points (fun p => z p ^ 2) - weightedSum w points z ^ 2) := by
    rw [squares]
    ring
  rw [product] at positive
  exact (mul_pos_iff_of_pos_left weight).mp positive

omit [LinearOrder K] [IsStrictOrderedRing K] in
theorem weighted_sum_on_line (a b : K) (on : ∀ p ∈ points, x p = a + b * z p) (g : P → K) :
    weightedSum w points (fun p => x p * g p) = weightedSum w points g * a + weightedSum w points (fun p => z p * g p) * b := by
  simp only [weightedSum]
  induction points with
  | nil => simp
  | cons p rest ih =>
      have later := ih fun q listed => on q (List.mem_cons_of_mem p listed)
      simp only [List.map_cons, List.sum_cons, on p List.mem_cons_self]
      linear_combination later

-- The points of a line are fitted by that line.
omit [LinearOrder K] [IsStrictOrderedRing K] in
theorem normal_of_on_line (a b : K) (on : ∀ p ∈ points, x p = a + b * z p) : NormalEquations w x z points a b := by
  have value := weighted_sum_on_line (w := w) a b on (fun _ => 1)
  have slope := weighted_sum_on_line (w := w) a b on z
  simp only [mul_one, ← pow_two] at value slope
  exact ⟨value.symm, slope.symm⟩

end

end Solgem.Lib
