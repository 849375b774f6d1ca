import Mathlib.LinearAlgebra.Matrix.NonsingularInverse
import Mathlib.Tactic.NormNum
import Solgem.ExactArith
import Solgem.Lib.LineFit
import Solgem.Lib.Listing

set_option autoImplicit false

namespace Solgem

open Lib

section
variable {F : Type} [Arith F]

structure FitLine (F : Type) where
  X : F
  Y : F
  Xp : F
  Yp : F

structure FitPoint (F : Type) where
  x : F
  y : F
  z : F
  wx : F
  wy : F

-- The matrix A and the vector b of the fit.
structure FitSums (F : Type) where
  A : Fin 4 → Fin 4 → F
  b : Fin 4 → F

def FitSums.zero : FitSums F := ⟨fun _ _ => 0.0, fun _ => 0.0⟩

def pointVector (p : FitPoint F) : Fin 4 → F := ![p.wx * p.x, p.wy * p.y, p.wx * p.x * p.z, p.wy * p.y * p.z]

def pointMatrix (p : FitPoint F) : Fin 4 → Fin 4 → F :=
  ![![p.wx, 0.0, p.wx * p.z, 0.0],
    ![0.0, p.wy, 0.0, p.wy * p.z],
    ![p.wx * p.z, 0.0, p.wx * (p.z * p.z), 0.0],
    ![0.0, p.wy * p.z, 0.0, p.wy * (p.z * p.z)]]

def FitSums.addPoint (s : FitSums F) (p : FitPoint F) : FitSums F :=
  ⟨fun i j => s.A i j + pointMatrix p i j, fun i => s.b i + pointVector p i⟩

def pointAt (xpoints ypoints zpoints wx wy : List F) (i : Nat) : Option (FitPoint F) := do
  let x ← xpoints[i]?
  let y ← ypoints[i]?
  let z ← zpoints[i]?
  let weightx ← wx[i]?
  let weighty ← wy[i]?
  some ⟨x, y, z, weightx, weighty⟩

-- The loop over the points: none where a vector is shorter than xpoints.
def fitSums (xpoints ypoints zpoints wx wy : List F) : Option (FitSums F) :=
  (List.range xpoints.length).foldlM (fun s i => (pointAt xpoints ypoints zpoints wx wy i).map s.addPoint) FitSums.zero

def matrixTimes (A : Fin 4 → Fin 4 → F) (b : Fin 4 → F) (i : Fin 4) : F :=
  A i 0 * b 0 + A i 1 * b 1 + A i 2 * b 2 + A i 3 * b 3

-- invert is TMatrixD::Invert; fewer than two points leave the caller's values.
def fit3DTrack (invert : (Fin 4 → Fin 4 → F) → Fin 4 → Fin 4 → F) (xpoints ypoints zpoints wx wy : List F)
    (track : FitLine F) : Option (FitLine F) :=
  if xpoints.length < 2 then some track
  else do
    let s ← fitSums xpoints ypoints zpoints wx wy
    let solution := matrixTimes (invert s.A) s.b
    some ⟨solution 0, solution 1, solution 2, solution 3⟩

-- The same calls on a list of points.
def sumsOf (points : List (FitPoint F)) : Option (FitSums F) :=
  fitSums (points.map FitPoint.x) (points.map FitPoint.y) (points.map FitPoint.z) (points.map FitPoint.wx) (points.map FitPoint.wy)

def fitOf (invert : (Fin 4 → Fin 4 → F) → Fin 4 → Fin 4 → F) (points : List (FitPoint F)) (track : FitLine F) :
    Option (FitLine F) :=
  fit3DTrack invert (points.map FitPoint.x) (points.map FitPoint.y) (points.map FitPoint.z) (points.map FitPoint.wx)
    (points.map FitPoint.wy) track

omit [Arith F] in
theorem point_at_entry (points : List (FitPoint F)) (i : Nat) :
    pointAt (points.map FitPoint.x) (points.map FitPoint.y) (points.map FitPoint.z) (points.map FitPoint.wx)
      (points.map FitPoint.wy) i = points[i]? := by
  simp only [pointAt, List.getElem?_map]
  cases points[i]? with
  | none => rfl
  | some p => rfl

theorem fit_sums_loop (points : List (FitPoint F)) : sumsOf points = some (points.foldl FitSums.addPoint FitSums.zero) := by
  simp only [sumsOf, fitSums, point_at_entry, List.length_map]
  exact entries_loop FitSums.addPoint points FitSums.zero

end

-- What the fit minimises.
noncomputable def chi2 (points : List (FitPoint ℝ)) (line : FitLine ℝ) : ℝ :=
  (points.map (fun p =>
    p.wx * (p.x - (line.X + line.Xp * p.z)) ^ 2 + p.wy * (p.y - (line.Y + line.Yp * p.z)) ^ 2)).sum

def OnLine (points : List (FitPoint ℝ)) (line : FitLine ℝ) : Prop :=
  ∀ p ∈ points, p.x = line.X + line.Xp * p.z ∧ p.y = line.Y + line.Yp * p.z

section
variable (points : List (FitPoint ℝ))

theorem chi2_split (line : FitLine ℝ) :
    chi2 points line =
      lineResidual FitPoint.wx FitPoint.x FitPoint.z points line.X line.Xp +
        lineResidual FitPoint.wy FitPoint.y FitPoint.z points line.Y line.Yp := by
  simp only [chi2, lineResidual, weightedSum]
  induction points with
  | nil => simp
  | cons p rest ih =>
      simp only [List.map_cons, List.sum_cons]
      linear_combination ih

noncomputable def sumVector : Fin 4 → ℝ :=
  ![weightedSum FitPoint.wx points FitPoint.x, weightedSum FitPoint.wy points FitPoint.y,
    weightedSum FitPoint.wx points (fun p => p.x * p.z), weightedSum FitPoint.wy points (fun p => p.y * p.z)]

-- The normal equations of x stand in the rows 0 and 2, those of y in 1 and 3.
noncomputable def sumMatrix : Matrix (Fin 4) (Fin 4) ℝ :=
  !![weightedSum FitPoint.wx points (fun _ => 1), 0, weightedSum FitPoint.wx points FitPoint.z, 0;
    0, weightedSum FitPoint.wy points (fun _ => 1), 0, weightedSum FitPoint.wy points FitPoint.z;
    weightedSum FitPoint.wx points FitPoint.z, 0, weightedSum FitPoint.wx points (fun p => p.z ^ 2), 0;
    0, weightedSum FitPoint.wy points FitPoint.z, 0, weightedSum FitPoint.wy points (fun p => p.z ^ 2)]

theorem loop_sums (start : FitSums ℝ) :
    points.foldl FitSums.addPoint start =
      ⟨fun i j => start.A i j + sumMatrix points i j, fun i => start.b i + sumVector points i⟩ := by
  induction points generalizing start with
  | nil =>
      have noMatrix : sumMatrix [] = 0 := by
        ext i j
        fin_cases i <;> fin_cases j <;> rfl
      have noVector : sumVector [] = 0 := by
        ext i
        fin_cases i <;> rfl
      simp [noMatrix, noVector]
  | cons p rest ih =>
      have matrix (i j : Fin 4) : sumMatrix (p :: rest) i j = pointMatrix p i j + sumMatrix rest i j := by
        fin_cases i <;> fin_cases j <;> simp [sumMatrix, pointMatrix, weightedSum, sq] <;> norm_num
      have vector (i : Fin 4) : sumVector (p :: rest) i = pointVector p i + sumVector rest i := by
        fin_cases i <;> simp [sumVector, pointVector, weightedSum] <;> ring
      rw [List.foldl_cons, ih]
      simp only [FitSums.addPoint, matrix, vector, add_assoc]

theorem sums_of_points : sumsOf points = some ⟨sumMatrix points, sumVector points⟩ := by
  have zero : (0.0 : ℝ) = 0 := by norm_num
  rw [fit_sums_loop, loop_sums]
  simp only [FitSums.zero, zero, zero_add]

theorem interleaved_determinant (a b c d e f : ℝ) :
    Matrix.det !![a, 0, b, 0; 0, c, 0, d; b, 0, e, 0; 0, d, 0, f] = (a * e - b ^ 2) * (c * f - d ^ 2) := by
  simp [Matrix.det_succ_row_zero, Fin.sum_univ_succ, Fin.succAbove]
  ring

theorem normal_equations (solution : Fin 4 → ℝ) (solved : Matrix.mulVec (sumMatrix points) solution = sumVector points) :
    NormalEquations FitPoint.wx FitPoint.x FitPoint.z points (solution 0) (solution 2) ∧
      NormalEquations FitPoint.wy FitPoint.y FitPoint.z points (solution 1) (solution 3) := by
  have row (i : Fin 4) : ∑ j, sumMatrix points i j * solution j = sumVector points i := congrFun solved i
  have x := row 0
  have y := row 1
  have xSlope := row 2
  have ySlope := row 3
  simp [sumMatrix, sumVector, Fin.sum_univ_four] at x y xSlope ySlope
  exact ⟨⟨x, xSlope⟩, ⟨y, ySlope⟩⟩

end

-- Positive weights, and two points at different z.
structure Fittable (points : List (FitPoint ℝ)) : Prop where
  positive : ∀ p ∈ points, 0 < p.wx ∧ 0 < p.wy
  apart : ∃ p ∈ points, ∃ q ∈ points, p.z ≠ q.z

section
variable {points : List (FitPoint ℝ)}

theorem fittable_x (fittable : Fittable points) : Spread FitPoint.wx FitPoint.z points :=
  ⟨fun p listed => (fittable.positive p listed).1, fittable.apart⟩

theorem fittable_y (fittable : Fittable points) : Spread FitPoint.wy FitPoint.z points :=
  ⟨fun p listed => (fittable.positive p listed).2, fittable.apart⟩

theorem fittable_two (fittable : Fittable points) : ¬ points.length < 2 := by
  obtain ⟨p, first, q, second, apart⟩ := fittable.apart
  intro short
  cases points with
  | nil => cases first
  | cons only rest =>
      have none_left : rest = [] := List.eq_nil_of_length_eq_zero (by rw [List.length_cons] at short; omega)
      subst none_left
      rw [List.mem_singleton] at first second
      exact apart (by rw [first, second])

theorem fittable_perm (points' : List (FitPoint ℝ)) (same : points.Perm points') (fittable : Fittable points) : Fittable points' := by
  obtain ⟨p, first, q, second, apart⟩ := fittable.apart
  exact ⟨fun p listed => fittable.positive p (same.mem_iff.mpr listed),
    p, same.mem_iff.mp first, q, same.mem_iff.mp second, apart⟩

theorem sum_matrix_invertible (fittable : Fittable points) : Matrix.det (sumMatrix points) ≠ 0 := by
  rw [sumMatrix, interleaved_determinant]
  exact mul_ne_zero (normal_determinant_pos (fittable_x fittable)).ne' (normal_determinant_pos (fittable_y fittable)).ne'

-- The line whose parameters solve the normal equations.
structure Fitted (points : List (FitPoint ℝ)) (line : FitLine ℝ) : Prop where
  x : NormalEquations FitPoint.wx FitPoint.x FitPoint.z points line.X line.Xp
  y : NormalEquations FitPoint.wy FitPoint.y FitPoint.z points line.Y line.Yp

theorem fitted_least (fittable : Fittable points) (line : FitLine ℝ) (fitted : Fitted points line) (other : FitLine ℝ) :
    chi2 points line ≤ chi2 points other := by
  rw [chi2_split, chi2_split]
  exact add_le_add (line_fit_least (fittable_x fittable) _ _ fitted.x _ _) (line_fit_least (fittable_y fittable) _ _ fitted.y _ _)

theorem fitted_unique (fittable : Fittable points) (line : FitLine ℝ) (fitted : Fitted points line) (other : FitLine ℝ)
    (least : chi2 points other ≤ chi2 points line) : other = line := by
  rw [chi2_split, chi2_split] at least
  have leastX := line_fit_least (fittable_x fittable) _ _ fitted.x other.X other.Xp
  have leastY := line_fit_least (fittable_y fittable) _ _ fitted.y other.Y other.Yp
  obtain ⟨sameX, sameXp⟩ := line_fit_unique (fittable_x fittable) _ _ fitted.x other.X other.Xp (by linarith)
  obtain ⟨sameY, sameYp⟩ := line_fit_unique (fittable_y fittable) _ _ fitted.y other.Y other.Yp (by linarith)
  cases line
  cases other
  simp only at sameX sameXp sameY sameYp
  rw [sameX, sameXp, sameY, sameYp]

theorem fitted_on_line (fittable : Fittable points) (line : FitLine ℝ) (fitted : Fitted points line) (other : FitLine ℝ)
    (on : OnLine points other) : other = line := by
  have onFit : Fitted points other :=
    ⟨normal_of_on_line _ _ fun p listed => by rw [(on p listed).1, mul_comm],
      normal_of_on_line _ _ fun p listed => by rw [(on p listed).2, mul_comm]⟩
  exact fitted_unique fittable line fitted other (fitted_least fittable other onFit line)

theorem chi2_perm (points' : List (FitPoint ℝ)) (same : points.Perm points') (line : FitLine ℝ) :
    chi2 points line = chi2 points' line :=
  (same.map _).sum_eq

-- TMatrixD::Invert on a matrix that has an inverse.
def ExactInverse (invert : (Fin 4 → Fin 4 → ℝ) → Fin 4 → Fin 4 → ℝ) : Prop :=
  ∀ A : Matrix (Fin 4) (Fin 4) ℝ, Matrix.det A ≠ 0 → Matrix.of (invert A) * A = 1

theorem fit_returns (invert : (Fin 4 → Fin 4 → ℝ) → Fin 4 → Fin 4 → ℝ) (exact : ExactInverse invert)
    (fittable : Fittable points) (track : FitLine ℝ) : ∃ line, fitOf invert points track = some line ∧ Fitted points line := by
  have inverse : sumMatrix points * Matrix.of (invert (sumMatrix points)) = 1 :=
    mul_eq_one_comm.mp (exact (sumMatrix points) (sum_matrix_invertible fittable))
  have solved : Matrix.mulVec (sumMatrix points) (Matrix.mulVec (Matrix.of (invert (sumMatrix points))) (sumVector points)) =
      sumVector points := by
    rw [Matrix.mulVec_mulVec, inverse, Matrix.one_mulVec]
  obtain ⟨x, y⟩ := normal_equations points _ solved
  have product (i : Fin 4) : Matrix.mulVec (Matrix.of (invert (sumMatrix points))) (sumVector points) i =
      matrixTimes (invert (sumMatrix points)) (sumVector points) i := by
    simp [Matrix.mulVec, dotProduct, Fin.sum_univ_four, matrixTimes]
  rw [product, product] at x y
  refine ⟨⟨_, _, _, _⟩, ?_, ⟨x, y⟩⟩
  have sums := sums_of_points points
  rw [sumsOf] at sums
  rw [fitOf, fit3DTrack, List.length_map, if_neg (fittable_two fittable), sums]
  rfl

end

theorem fit_least_squares (invert : (Fin 4 → Fin 4 → ℝ) → Fin 4 → Fin 4 → ℝ) (exact : ExactInverse invert)
    (points : List (FitPoint ℝ)) (fittable : Fittable points) (track : FitLine ℝ) :
    ∃ sums line, sumsOf points = some sums ∧ Matrix.det (Matrix.of sums.A) ≠ 0 ∧ fitOf invert points track = some line ∧
      (∀ other, chi2 points line ≤ chi2 points other) ∧
      (∀ other, chi2 points other ≤ chi2 points line → other = line) ∧
      (∀ other, OnLine points other → line = other) ∧
      ∀ points', points.Perm points' → fitOf invert points' track = some line := by
  obtain ⟨line, returned, fitted⟩ := fit_returns invert exact fittable track
  refine ⟨_, line, sums_of_points points, sum_matrix_invertible fittable, returned, fitted_least fittable line fitted,
    fitted_unique fittable line fitted, fun other on => (fitted_on_line fittable line fitted other on).symm, ?_⟩
  intro points' same
  obtain ⟨line', returned', fitted'⟩ := fit_returns invert exact (fittable_perm points' same fittable) track
  have least := fitted_least (fittable_perm points' same fittable) line' fitted' line
  rw [← chi2_perm points' same, ← chi2_perm points' same] at least
  rw [returned', fitted_unique fittable line fitted line' least]

-- Two points of the line x = z, y = 2 z.
theorem fit_two_points :
    fitOf (fun A i j => (Matrix.of A)⁻¹ i j) [⟨0, 0, 0, 1, 1⟩, ⟨1, 2, 1, 3, 1⟩] (⟨7, 7, 7, 7⟩ : FitLine ℝ) = some ⟨0, 0, 1, 2⟩ := by
  have exact : ExactInverse (fun A i j => (Matrix.of A)⁻¹ i j) :=
    fun A regular => Matrix.nonsing_inv_mul A (isUnit_iff_ne_zero.mpr regular)
  have fittable : Fittable [⟨0, 0, 0, 1, 1⟩, ⟨1, 2, 1, 3, 1⟩] :=
    ⟨by simp, ⟨0, 0, 0, 1, 1⟩, by simp, ⟨1, 2, 1, 3, 1⟩, by simp, by simp⟩
  obtain ⟨_, line, _, _, returned, _, _, online, _⟩ := fit_least_squares _ exact _ fittable ⟨7, 7, 7, 7⟩
  rw [returned, online ⟨0, 0, 1, 2⟩ (by simp [OnLine])]

end Solgem
