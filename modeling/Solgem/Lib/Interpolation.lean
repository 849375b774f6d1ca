import Mathlib.Algebra.Order.Floor.Ring
import Mathlib.Tactic.Linarith

set_option autoImplicit false

namespace Solgem.Lib

variable {K : Type} [Field K] [LinearOrder K] [IsStrictOrderedRing K] [FloorRing K]

-- The line from one entry of a table to the next.
def interpolate (f : ℤ → K) (t : K) : K := f ⌊t⌋ + (f (⌊t⌋ + 1) - f ⌊t⌋) * (t - ⌊t⌋)

section
variable {f : ℤ → K}

theorem interpolate_low (rises : ∀ k k', k ≤ k' → f k ≤ f k') (t : K) : f ⌊t⌋ ≤ interpolate f t := by
  have step : 0 ≤ f (⌊t⌋ + 1) - f ⌊t⌋ := sub_nonneg.mpr (rises _ _ (by omega))
  have past : 0 ≤ t - ⌊t⌋ := sub_nonneg.mpr (Int.floor_le t)
  have more := mul_nonneg step past
  rw [interpolate]
  linarith

theorem interpolate_high (rises : ∀ k k', k ≤ k' → f k ≤ f k') (t : K) : interpolate f t ≤ f (⌊t⌋ + 1) := by
  have step : 0 ≤ f (⌊t⌋ + 1) - f ⌊t⌋ := sub_nonneg.mpr (rises _ _ (by omega))
  have before : t - ⌊t⌋ ≤ 1 := by linarith [Int.lt_floor_add_one t]
  have less := mul_le_mul_of_nonneg_left before step
  rw [interpolate]
  linarith

-- Within one bin the line rises; between two bins an entry of the table lies.
theorem interpolate_monotone (rises : ∀ k k', k ≤ k' → f k ≤ f k') : Monotone (interpolate f) := by
  intro t t' before
  cases (Int.floor_mono before).lt_or_eq with
  | inl later =>
      calc interpolate f t ≤ f (⌊t⌋ + 1) := interpolate_high rises t
        _ ≤ f ⌊t'⌋ := rises _ _ later
        _ ≤ interpolate f t' := interpolate_low rises t'
  | inr same =>
      have step : 0 ≤ f (⌊t⌋ + 1) - f ⌊t⌋ := sub_nonneg.mpr (rises _ _ (by omega))
      have more := mul_le_mul_of_nonneg_left (sub_le_sub_right before (⌊t⌋ : K)) step
      rw [interpolate, interpolate, ← same]
      linarith

theorem interpolate_bounds (rises : ∀ k k', k ≤ k' → f k ≤ f k') (low high : K) (inside : ∀ k, low ≤ f k ∧ f k ≤ high) (t : K) :
    low ≤ interpolate f t ∧ interpolate f t ≤ high :=
  ⟨(inside ⌊t⌋).1.trans (interpolate_low rises t), (interpolate_high rises t).trans (inside (⌊t⌋ + 1)).2⟩

omit [IsStrictOrderedRing K] in
theorem interpolate_flat (t c : K) (here : f ⌊t⌋ = c) (next : f (⌊t⌋ + 1) = c) : interpolate f t = c := by
  rw [interpolate, here, next, sub_self, zero_mul, add_zero]

end

end Solgem.Lib
