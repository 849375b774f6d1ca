import Mathlib.Data.Int.Order.Basic
import Mathlib.Tactic.Linarith

set_option autoImplicit false

namespace Solgem.Lib

-- One digit of a mixed radix number and the rest above it.
theorem digit_inj (base low low' high high' : Int) (lowest : 0 ≤ low) (bound : low < base) (lowest' : 0 ≤ low')
    (bound' : low' < base) (same : low + base * high = low' + base * high') : low = low' ∧ high = high' := by
  have difference : base * (high - high') = low' - low := by
    rw [Int.mul_sub]
    omega
  have equal : high = high' := by
    by_contra apart
    cases Int.lt_or_gt_of_ne apart with
    | inl less =>
        have gap : base * (high - high') ≤ base * (-1) := Int.mul_le_mul_of_nonneg_left (by omega) (by omega)
        omega
    | inr more =>
        have gap : base * 1 ≤ base * (high - high') := Int.mul_le_mul_of_nonneg_left (by omega) (by omega)
        omega
  subst equal
  exact ⟨by omega, rfl⟩

theorem quotient_remainder_inj (n n' base : Int) (quotient : n.tdiv base = n'.tdiv base)
    (remainder : n.tmod base = n'.tmod base) : n = n' := by
  rw [← Int.mul_tdiv_add_tmod n base, ← Int.mul_tdiv_add_tmod n' base, quotient, remainder]

-- Half-open ranges of numbers that follow one another or lie apart.
def RangesApart (start size start' size' : Int) : Prop := start + size ≤ start' ∨ start' + size' ≤ start

theorem ranges_apart_iff (start size start' size' : Int) (filled : 0 < size) (filled' : 0 < size') :
    RangesApart start size start' size' ↔
      ∀ i i', 0 ≤ i → i < size → 0 ≤ i' → i' < size' → start + i ≠ start' + i' := by
  constructor
  · rintro apart i i' low high low' high'
    rcases apart with before | after <;> omega
  · intro distinct
    by_contra overlap
    have inside : start' < start + size ∧ start < start' + size' := by
      simp only [RangesApart] at overlap
      omega
    have common := distinct (max start start' - start) (max start start' - start')
    omega

end Solgem.Lib
