import Mathlib.Algebra.Order.Ring.Abs
import Mathlib.Tactic.Linarith
import Mathlib.Tactic.Ring

set_option autoImplicit false

namespace Solgem.Lib

section
variable (K : Type) [CommRing K] [LinearOrder K]

-- Bins of one width side by side from low on, each with both its edges.
structure Bins where
  low : K
  half : K
  count : Nat
  positive : 0 < half

end

variable {K : Type} [CommRing K] [LinearOrder K]

namespace Bins

variable (b : Bins K)

def edge (i : Nat) : K := b.low + i * (b.half + b.half)
def centre (i : Nat) : K := b.edge i + b.half

-- The first bin from the left that holds x, and its centre; what no bin holds
-- stays.
def search (x : K) : Option Nat := (List.range b.count).find? (fun i => decide (b.edge i ≤ x ∧ x ≤ b.edge (i + 1)))
def round (x : K) : K := (b.search x).elim x b.centre

theorem edge_next (i : Nat) : b.edge (i + 1) = b.edge i + b.half + b.half := by
  rw [edge, edge, Nat.cast_succ]
  ring

theorem search_some (x : K) (i : Nat) (found : b.search x = some i) : i < b.count ∧ b.edge i ≤ x ∧ x ≤ b.edge (i + 1) := by
  have inside := List.find?_some found
  rw [decide_eq_true_iff] at inside
  exact ⟨List.mem_range.mp (List.mem_of_find?_eq_some found), inside⟩

theorem round_missed (x : K) (missed : b.search x = none) : b.round x = x := by
  rw [round, missed]
  rfl

theorem round_found (x : K) (i : Nat) (found : b.search x = some i) : b.round x = b.centre i := by
  rw [round, found]
  rfl

theorem covered (x : K) (n : Nat) (some_bin : 0 < n) (low : b.edge 0 ≤ x) (high : x ≤ b.edge n) :
    ∃ i < n, b.edge i ≤ x ∧ x ≤ b.edge (i + 1) := by
  induction n with
  | zero => exact absurd some_bin (lt_irrefl 0)
  | succ n ih =>
      by_cases last : b.edge n ≤ x
      · exact ⟨n, Nat.lt_succ_self n, last, high⟩
      · have before : x < b.edge n := not_le.mp last
        have more : 0 < n := by
          rcases Nat.eq_zero_or_pos n with none_before | more
          · exact absurd low (not_le.mpr (none_before ▸ before))
          · exact more
        obtain ⟨i, inside, held⟩ := ih more before.le
        exact ⟨i, inside.trans (Nat.lt_succ_self n), held⟩

variable [IsStrictOrderedRing K]

theorem edge_order {i j : Nat} (before : i ≤ j) : b.edge i ≤ b.edge j := by
  refine monotone_nat_of_le_succ (fun n => ?_) before
  rw [edge_next]
  linarith [b.positive]

theorem search_none (some_bin : 0 < b.count) (x : K) : b.search x = none ↔ x < b.edge 0 ∨ b.edge b.count < x := by
  constructor
  · intro missed
    by_contra inside
    rw [not_or, not_lt, not_lt] at inside
    obtain ⟨i, below, held⟩ := b.covered x b.count some_bin inside.1 inside.2
    have never := List.find?_eq_none.mp missed i (List.mem_range.mpr below)
    rw [decide_eq_true held] at never
    exact never rfl
  · intro outside
    refine List.find?_eq_none.mpr fun i below => ?_
    have left := b.edge_order (Nat.zero_le i)
    have right := b.edge_order (Nat.succ_le_of_lt (List.mem_range.mp below))
    rw [decide_eq_true_iff]
    rintro ⟨low, high⟩
    cases outside with
    | inl before => exact absurd (left.trans low) (not_le.mpr before)
    | inr after => exact absurd (high.trans right) (not_le.mpr after)

theorem centre_between (i : Nat) : b.edge i ≤ b.centre i ∧ b.centre i ≤ b.edge (i + 1) := by
  rw [centre, edge_next]
  exact ⟨by linarith [b.positive], by linarith [b.positive]⟩

theorem centre_order {i j : Nat} (before : i ≤ j) : b.centre i ≤ b.centre j := by
  rw [centre, centre]
  linarith [b.edge_order before]

-- What a bin holds lies within half its width of the centre.
theorem centre_near (x : K) (i : Nat) (low : b.edge i ≤ x) (high : x ≤ b.edge (i + 1)) : |b.centre i - x| ≤ b.half := by
  rw [edge_next] at high
  rw [centre, abs_le]
  exact ⟨by linarith, by linarith⟩

theorem centre_far (x : K) (i j : Nat) (other : i ≠ j) (low : b.edge i ≤ x) (high : x ≤ b.edge (i + 1)) :
    b.half ≤ |b.centre j - x| := by
  cases Nat.lt_or_gt_of_ne other with
  | inl before =>
      have edges := b.edge_order (Nat.succ_le_of_lt before)
      rw [centre]
      exact le_trans (by linarith) (le_abs_self _)
  | inr after =>
      have edges := b.edge_order (Nat.succ_le_of_lt after)
      rw [Nat.succ_eq_add_one, edge_next] at edges
      rw [centre, abs_sub_comm]
      exact le_trans (by linarith) (le_abs_self _)

theorem round_outside (some_bin : 0 < b.count) (x : K) (outside : x < b.edge 0 ∨ b.edge b.count < x) : b.round x = x :=
  b.round_missed x ((b.search_none some_bin x).mpr outside)

theorem round_inside (some_bin : 0 < b.count) (x : K) (low : b.edge 0 ≤ x) (high : x ≤ b.edge b.count) :
    ∃ i < b.count, b.round x = b.centre i ∧ |b.centre i - x| ≤ b.half ∧ ∀ j, |b.centre i - x| ≤ |b.centre j - x| := by
  cases found : b.search x with
  | none =>
      cases (b.search_none some_bin x).mp found with
      | inl before => exact absurd low (not_le.mpr before)
      | inr after => exact absurd high (not_le.mpr after)
  | some i =>
      obtain ⟨below, left, right⟩ := b.search_some x i found
      have near := b.centre_near x i left right
      refine ⟨i, below, b.round_found x i found, near, fun j => ?_⟩
      by_cases same : i = j
      · rw [same]
      · exact near.trans (b.centre_far x i j same left right)

-- A centre lies in no bin but its own.
theorem search_centre (i : Nat) (below : i < b.count) : b.search (b.centre i) = some i := by
  have held := b.centre_between i
  cases found : b.search (b.centre i) with
  | none =>
      have never := List.find?_eq_none.mp found i (List.mem_range.mpr below)
      rw [decide_eq_true held] at never
      exact absurd rfl never
  | some j =>
      obtain ⟨_, left', right'⟩ := b.search_some _ j found
      by_contra other
      have far := b.centre_far (b.centre i) j i (fun same => other (congrArg some same)) left' right'
      rw [sub_self, abs_zero] at far
      exact absurd far (not_le.mpr b.positive)

theorem round_round (x : K) : b.round (b.round x) = b.round x := by
  cases found : b.search x with
  | none =>
      rw [b.round_missed x found, b.round_missed x found]
  | some i =>
      rw [b.round_found x i found]
      exact b.round_found _ i (b.search_centre i (b.search_some x i found).1)

theorem round_monotone (some_bin : 0 < b.count) : Monotone b.round := by
  intro x y ordered
  cases left : b.search x with
  | none =>
      rw [b.round_missed x left]
      cases right : b.search y with
      | none =>
          rw [b.round_missed y right]
          exact ordered
      | some j =>
          obtain ⟨below, _, high⟩ := b.search_some y j right
          rw [b.round_found y j right]
          cases (b.search_none some_bin x).mp left with
          | inl before => exact before.le.trans ((b.edge_order (Nat.zero_le j)).trans (b.centre_between j).1)
          | inr after =>
              have inside := ordered.trans (high.trans (b.edge_order (Nat.succ_le_of_lt below)))
              exact absurd inside (not_le.mpr after)
  | some i =>
      obtain ⟨below, low, high⟩ := b.search_some x i left
      rw [b.round_found x i left]
      cases right : b.search y with
      | none =>
          rw [b.round_missed y right]
          cases (b.search_none some_bin y).mp right with
          | inl before =>
              have inside := (b.edge_order (Nat.zero_le i)).trans (low.trans ordered)
              exact absurd inside (not_le.mpr before)
          | inr after => exact (b.centre_between i).2.trans ((b.edge_order (Nat.succ_le_of_lt below)).trans after.le)
      | some j =>
          obtain ⟨_, _, high'⟩ := b.search_some y j right
          rw [b.round_found y j right]
          by_cases before : i ≤ j
          · exact b.centre_order before
          -- y lies right of x and in a bin left of the one of x: both are the edge between.
          · have edges := b.edge_order (Nat.succ_le_of_lt (not_le.mp before))
            have same : x = y := le_antisymm ordered (high'.trans (edges.trans low))
            rw [same, right] at left
            cases left
            exact le_rfl

end Bins

end Solgem.Lib
