import Mathlib.Tactic.FieldSimp
import Solgem.ExactArith
import Solgem.Lib.Bins
import Solgem.LoadEvent

set_option autoImplicit false

namespace Solgem

open Lib

theorem half_bin_positive : (0 : ℝ) < 0.0096 := by norm_num

-- The bins along the beam that find_vertex_bin searches: 21 of them cover the
-- target, the middle one around its centre.
noncomputable def vertexBins : Bins ℝ := ⟨-0.2016, 0.0096, 21, half_bin_positive⟩

theorem vertex_bin_count : nint (Arith.ceil (Ltgt / vz_bin_width : ℝ)) = 21 := by
  have bins : (Ltgt / vz_bin_width : ℝ) = 125 / 6 := by
    rw [Ltgt, vz_bin_width]
    norm_num
  have rounded : ⌈(125 / 6 : ℝ)⌉ = 21 := Int.ceil_eq_iff.mpr ⟨by norm_num, by norm_num⟩
  change nint ((⌈(Ltgt / vz_bin_width : ℝ)⌉ : ℤ) : ℝ) = 21
  rw [bins, rounded, nint_whole]

theorem find_vertex_bin_rounds (vz_true : ℝ) : findVertexBin vz_true = vertexBins.round vz_true := by
  have start : -vz_bin_width * (Arith.ofInt 21 : ℝ) / 2.0 = -0.2016 := by
    change -vz_bin_width * ((21 : ℤ) : ℝ) / 2.0 = -0.2016
    rw [vz_bin_width]
    norm_num
  have left (i : Nat) : -0.2016 + (Arith.ofInt i : ℝ) * vz_bin_width = vertexBins.edge i := by
    change -0.2016 + ((i : ℤ) : ℝ) * vz_bin_width = -0.2016 + (i : ℝ) * (0.0096 + 0.0096)
    rw [Int.cast_natCast, vz_bin_width]
    norm_num
  have right (i : Nat) : -0.2016 + (Arith.ofInt (i + 1) : ℝ) * vz_bin_width = vertexBins.edge (i + 1) := left (i + 1)
  have middle (i : Nat) : -0.2016 + ((Arith.ofInt i : ℝ) + 0.5) * vz_bin_width = vertexBins.centre i := by
    rw [Bins.centre, ← left, vz_bin_width]
    change _ = _ + 0.0096
    norm_num
    ring
  rw [findVertexBin, Bins.round, Bins.search, vertex_bin_count, start]
  simp only [left, right, middle]
  -- The comparisons are decided by Arith's instances on one side only.
  have decided (p q : Nat → Bool) (agree : ∀ i, p i = q i) : List.find? p = List.find? q := congrArg List.find? (funext agree)
  rw [decided _ (fun i => decide (vertexBins.edge i ≤ vz_true ∧ vz_true ≤ vertexBins.edge (i + 1)))
    (fun i => decide_eq_decide.mpr Iff.rfl), show vertexBins.count = Int.toNat 21 from rfl]
  cases List.find? (fun i => decide (vertexBins.edge i ≤ vz_true ∧ vz_true ≤ vertexBins.edge (i + 1))) (List.range (Int.toNat 21)) with
  | none => rfl
  | some i => rfl

theorem vertex_centre (i : Nat) : vertexBins.centre i = ((i : ℤ) - 10 : ℤ) * 0.0192 := by
  change -0.2016 + (i : ℝ) * (0.0096 + 0.0096) + 0.0096 = _
  push_cast
  norm_num
  ring

theorem vertex_first_edge : vertexBins.edge 0 = -0.2016 := by
  change -0.2016 + ((0 : ℕ) : ℝ) * (0.0096 + 0.0096) = -0.2016
  rw [Nat.cast_zero, zero_mul, add_zero]

theorem vertex_last_edge : vertexBins.edge vertexBins.count = 0.2016 := by
  change -0.2016 + ((21 : ℕ) : ℝ) * (0.0096 + 0.0096) = 0.2016
  norm_num

-- Where a vertex is taken to be: at the nearest of the 21 bin centres, if it
-- lies in a bin.
structure VertexBinned (z binned : ℝ) : Prop where
  outside : 0.2016 < |z| → binned = z
  inside : |z| ≤ 0.2016 → ∃ k : ℤ, |k| ≤ 10 ∧ binned = k * 0.0192 ∧ |binned - z| ≤ 0.0096 ∧
    ∀ m : ℤ, |m| ≤ 10 → |binned - z| ≤ |m * 0.0192 - z|

-- The search with its closed bins is a rounding: it keeps the order of the
-- vertices, leaves a rounded vertex where it is, and goes to the nearest bin.
theorem vertex_rounded_to_bins :
    Monotone (findVertexBin : ℝ → ℝ) ∧
      ∀ z : ℝ, findVertexBin (findVertexBin z) = findVertexBin z ∧ VertexBinned z (findVertexBin z) := by
  have some_bin : 0 < vertexBins.count := Nat.succ_pos 20
  have rounds : (findVertexBin : ℝ → ℝ) = vertexBins.round := funext find_vertex_bin_rounds
  rw [rounds]
  refine ⟨vertexBins.round_monotone some_bin, fun z => ⟨vertexBins.round_round z, fun outside => ?_, fun inside => ?_⟩⟩
  · refine vertexBins.round_outside some_bin z ?_
    rw [vertex_first_edge, vertex_last_edge, lt_neg]
    exact (lt_abs.mp outside).symm
  · obtain ⟨low, high⟩ := abs_le.mp inside
    obtain ⟨i, below, rounded, near, nearest⟩ := vertexBins.round_inside some_bin z (by rwa [vertex_first_edge])
      (by rwa [vertex_last_edge])
    have few : i < 21 := below
    rw [rounded]
    refine ⟨(i : ℤ) - 10, abs_le.mpr ⟨by omega, by omega⟩, vertex_centre i, near, fun m bound => ?_⟩
    obtain ⟨left, right⟩ := abs_le.mp bound
    have other := nearest (m + 10).toNat
    rwa [vertex_centre (m + 10).toNat, Int.toNat_of_nonneg (by omega), add_sub_cancel_right] at other

end Solgem
