import Mathlib.Algebra.Order.Floor.Ring
import Mathlib.Tactic.Linarith
import Solgem.Arith

set_option autoImplicit false

namespace Solgem

theorem trunc_upper (x : ℝ) : x - 1 < (Arith.trunc x : ℤ) := by
  change x - 1 < ((if 0 ≤ x then ⌊x⌋ else ⌈x⌉ : ℤ) : ℝ)
  split
  · linarith [Int.lt_floor_add_one x]
  · linarith [Int.le_ceil x]

theorem trunc_lower (x : ℝ) (nonneg : 0 ≤ x) : ((Arith.trunc x : ℤ) : ℝ) ≤ x := by
  change ((if 0 ≤ x then ⌊x⌋ else ⌈x⌉ : ℤ) : ℝ) ≤ x
  rw [if_pos nonneg]
  exact Int.floor_le x

theorem trunc_nonpos (x : ℝ) (neg : x < 0) : (Arith.trunc x : ℤ) ≤ 0 := by
  change (if 0 ≤ x then ⌊x⌋ else ⌈x⌉ : ℤ) ≤ 0
  rw [if_neg (not_le.mpr neg)]
  exact Int.ceil_le.mpr (by exact_mod_cast neg.le)

theorem trunc_of_nonneg (x : ℝ) (nonneg : 0 ≤ x) : (Arith.trunc x : ℤ) = ⌊x⌋ := if_pos nonneg

theorem trunc_of_neg (x : ℝ) (neg : x < 0) : (Arith.trunc x : ℤ) = ⌈x⌉ := if_neg (not_le.mpr neg)

theorem trunc_whole (n : Int) : (Arith.trunc (n : ℝ) : ℤ) = n := by
  change (if (0 : ℝ) ≤ n then ⌊(n : ℝ)⌋ else ⌈(n : ℝ)⌉) = n
  split
  · exact Int.floor_intCast n
  · exact Int.ceil_intCast n

theorem trunc_nonneg (x : ℝ) (nonneg : 0 ≤ x) : (0 : ℤ) ≤ Arith.trunc x := by
  rw [trunc_of_nonneg x nonneg]
  exact Int.floor_nonneg.mpr nonneg

-- What is converted lies less than one above the result, unless it is negative.
theorem trunc_eq (x : ℝ) (n : ℤ) (nonneg : 0 ≤ n) (low : (n : ℝ) ≤ x) (high : x < n + 1) : (Arith.trunc x : ℤ) = n := by
  have count : (0 : ℝ) ≤ n := by exact_mod_cast nonneg
  rw [trunc_of_nonneg x (count.trans low)]
  exact Int.floor_eq_iff.mpr ⟨low, high⟩

theorem nint_whole (n : Int) : nint (n : ℝ) = n := by
  have half : (0.5 : ℝ) = 1 / 2 := by norm_num
  by_cases nonneg : (0.0 : ℝ) ≤ n
  · have low : (0 : ℝ) ≤ n := by
      norm_num at nonneg
      exact_mod_cast nonneg
    have whole : (Arith.trunc ((n : ℝ) + 0.5) : Int) = n :=
      trunc_eq _ n (by exact_mod_cast low) (by linarith) (by linarith)
    have above : ¬ (n : ℝ) + 0.5 ≤ Arith.ofInt n := by
      change ¬ (n : ℝ) + 0.5 ≤ (n : ℝ)
      linarith
    simp only [nint, if_pos nonneg, whole]
    rw [if_neg (fun tie => above tie.2)]
  · have neg : (n : ℝ) < 0 := by
      norm_num at nonneg
      exact_mod_cast nonneg
    have whole : (Arith.trunc ((n : ℝ) - 0.5) : Int) = n := by
      rw [trunc_of_neg _ (by linarith)]
      exact Int.ceil_eq_iff.mpr ⟨by linarith, by linarith⟩
    have below : ¬ Arith.ofInt n ≤ (n : ℝ) - 0.5 := by
      change ¬ (n : ℝ) ≤ (n : ℝ) - 0.5
      linarith
    simp only [nint, if_neg nonneg, whole]
    rw [if_neg (fun tie => below tie.2)]

-- Two ordered numbers span a unit cell, unless they are one whole number.
theorem cells_spanned (a b : ℝ) (ordered : a ≤ b) : 0 < ⌈b⌉ - ⌊a⌋ ↔ ¬ (a = b ∧ ∃ k : ℤ, a = k) := by
  have cells : 0 < ⌈b⌉ - ⌊a⌋ ↔ (⌊a⌋ : ℝ) < b := by
    rw [sub_pos, Int.lt_ceil]
  rw [cells]
  constructor
  · rintro above ⟨same, k, whole⟩
    rw [← same, whole, Int.floor_intCast] at above
    exact lt_irrefl _ above
  · intro spread
    refine lt_of_not_ge (fun below => spread ?_)
    have low := Int.floor_le a
    exact ⟨by linarith, ⌊a⌋, by linarith⟩

end Solgem
