import Mathlib.Algebra.BigOperators.Group.Finset.Basic
import Mathlib.Algebra.Ring.Rat
import Mathlib.Tactic.Ring

set_option autoImplicit false

namespace Solgem.Lib

section
variable {S R : Type} [CommRing R]

-- A loop that moves a coordinate along with its index.
theorem walk_foldl (f : Nat → R → S → S) (x step : R) (n : Nat) (s : S) :
    (List.range n).foldl (fun (acc : S × R) k => (f k acc.2 acc.1, acc.2 + step)) (s, x) =
      ((List.range n).foldl (fun s k => f k (x + k * step) s) s, x + n * step) := by
  induction n with
  | zero => simp
  | succ n ih =>
      rw [List.range_succ, List.foldl_append, List.foldl_append, ih, List.foldl_cons, List.foldl_nil, List.foldl_cons, List.foldl_nil,
        Nat.cast_succ]
      ring_nf

end

section
variable {M : Type} [AddCommMonoid M]

-- A loop that adds to one table entry after the other.
theorem sweep_foldl (t : Nat → M) (base : Int) (n : Nat) (table : Int → M) (b : Int) :
    (List.range n).foldl (fun table (k : Nat) => Function.update table (base + k) (table (base + k) + t k)) table b =
      table b + if base ≤ b ∧ b < base + n then t (b - base).toNat else 0 := by
  induction n with
  | zero =>
      rw [List.range_zero, List.foldl_nil, if_neg (by omega), add_zero]
  | succ n ih =>
      rw [List.range_succ, List.foldl_append, List.foldl_cons, List.foldl_nil]
      by_cases last : b = base + n
      · subst last
        rw [Function.update_self, ih, if_neg (by omega), if_pos (by omega), add_zero]
        congr 2
        omega
      · rw [Function.update_of_ne last, ih]
        congr 1
        by_cases before : base ≤ b ∧ b < base + n
        · rw [if_pos before, if_pos (by omega)]
        · rw [if_neg before, if_neg (by omega)]

-- The same for a loop whose passes each add to the entries of one row.
theorem rows_foldl (step : Nat → (Int → M) → Int → M) (row : Int → Int) (base : Int) (P : Int → Prop) [DecidablePred P]
    (t : Int → M) (writes : ∀ k table b, step k table b = table b + if row b = base + k ∧ P b then t b else 0) (n : Nat)
    (table : Int → M) (b : Int) :
    (List.range n).foldl (fun table k => step k table) table b =
      table b + if base ≤ row b ∧ row b < base + n ∧ P b then t b else 0 := by
  induction n with
  | zero => rw [List.range_zero, List.foldl_nil, if_neg (by omega), add_zero]
  | succ n ih =>
      rw [List.range_succ, List.foldl_append, List.foldl_cons, List.foldl_nil, writes, ih, add_assoc]
      congr 1
      by_cases passes : P b
      · by_cases last : row b = base + n
        · rw [if_neg (by omega), if_pos ⟨last, passes⟩, if_pos ⟨by omega, by omega, passes⟩, zero_add]
        · have other : ¬ (row b = base + n ∧ P b) := fun both => last both.1
          rw [if_neg other, add_zero]
          by_cases before : base ≤ row b ∧ row b < base + n
          · rw [if_pos ⟨before.1, before.2, passes⟩, if_pos ⟨by omega, by omega, passes⟩]
          · rw [if_neg (fun all => before ⟨all.1, all.2.1⟩), if_neg (by omega)]
      · rw [if_neg (fun all => passes all.2.2), if_neg (fun both => passes both.2), if_neg (fun all => passes all.2.2), add_zero]

theorem sum_foldl (f : Nat → M) (n : Nat) (s : M) :
    (List.range n).foldl (fun sum k => sum + f k) s = s + ∑ k ∈ Finset.range n, f k := by
  induction n with
  | zero => simp
  | succ n ih =>
      rw [List.range_succ, List.foldl_append, ih, List.foldl_cons, List.foldl_nil, Finset.sum_range_succ, add_assoc]

theorem sum_rows (f : Nat → M) (m n : Nat) :
    ∑ i ∈ Finset.range m, ∑ j ∈ Finset.range n, f (i * n + j) = ∑ b ∈ Finset.range (m * n), f b := by
  induction m with
  | zero => simp
  | succ m ih => rw [Finset.sum_range_succ, ih, Nat.succ_mul, Finset.sum_range_add]

theorem sum_row (f : Nat → M) (m n i : Nat) (inside : i < m) :
    ∑ b ∈ Finset.range (m * n) with b / n = i, f b = ∑ j ∈ Finset.range n, f (i * n + j) := by
  rcases Nat.eq_zero_or_pos n with rfl | some_entry
  · simp
  · symm
    refine Finset.sum_nbij' (fun j => i * n + j) (fun b => b % n) ?_ ?_ ?_ ?_ (fun _ _ => rfl)
    · intro j member
      have below := Finset.mem_range.mp member
      have bound : (i + 1) * n ≤ m * n := Nat.mul_le_mul_right n inside
      rw [Nat.succ_mul] at bound
      refine Finset.mem_filter.mpr ⟨Finset.mem_range.mpr (by omega), ?_⟩
      rw [Nat.mul_comm, Nat.mul_add_div some_entry, Nat.div_eq_of_lt below, Nat.add_zero]
    · intro b _
      exact Finset.mem_range.mpr (Nat.mod_lt b some_entry)
    · intro j member
      rw [Nat.mul_comm, Nat.mul_add_mod, Nat.mod_eq_of_lt (Finset.mem_range.mp member)]
    · intro b member
      rw [← (Finset.mem_filter.mp member).2, Nat.mul_comm]
      exact Nat.div_add_mod b n

end

end Solgem.Lib
