import Mathlib.Data.Fin.VecNotation
import Mathlib.Tactic.FieldSimp
import Mathlib.Tactic.FinCases
import Mathlib.Tactic.LinearCombination
import Solgem.StripGeometry
import Solgem.Lib.Motion

set_option autoImplicit false

namespace Solgem

open Lib

-- TMatrixD with three rows and columns: the operations SetRotations and the
-- conversions use.
abbrev Mat3 (F : Type) := Fin 3 → Fin 3 → F

section
variable {F : Type} [Arith F]

namespace Mat3

def mult (a b : Mat3 F) : Mat3 F := fun i j => a i 0 * b 0 j + a i 1 * b 1 j + a i 2 * b 2 j

def cofactor (m : Mat3 F) (i j : Fin 3) : F := m (i + 1) (j + 1) * m (i + 2) (j + 2) - m (i + 1) (j + 2) * m (i + 2) (j + 1)

def determinant (m : Mat3 F) : F := m 0 0 * m.cofactor 0 0 + m 0 1 * m.cofactor 0 1 + m 0 2 * m.cofactor 0 2

def invert (m : Mat3 F) : Mat3 F := fun i j => m.cofactor j i / m.determinant

def apply (m : Mat3 F) (v : V3 F) : V3 F :=
  let row := fun i => m i 0 * v.x + m i 1 * v.y + m i 2 * v.z
  ⟨row 0, row 1, row 2⟩

end Mat3

-- TVector3::Mag, and the distance of two points by it.
def V3.mag (v : V3 F) : F := Arith.sqrt (v.x * v.x + v.y * v.y + v.z * v.z)
def V3.dist (v w : V3 F) : F := (v.sub w).mag
def planeDist (p q : F × F) : F := Arith.sqrt ((p.1 - q.1) * (p.1 - q.1) + (p.2 - q.2) * (p.2 - q.2))

def V3.onXY (f : F × F → F × F) (v : V3 F) : V3 F := ⟨(f (v.x, v.y)).1, (f (v.x, v.y)).2, v.z⟩

def Box.specToBox (b : Box F) (pos : F × F) : F × F := (pos.1 - b.fXOffset * 1.0e3, pos.2)
def Box.boxToSpecXY (b : Box F) (pos : F × F) : F × F := (pos.1 + b.fXOffset * 1.0e3, pos.2)

-- TSBSBox with all the members its frame conversions read.
structure SBSBox (F : Type) extends Box F where
  fDMag : F
  fThetaV : F
  fRotMat_LB : Mat3 F
  fOrigin : V3 F

namespace SBSBox

def roty0 : Mat3 F := ![![1.0, 0.0, 0.0], ![0.0, 1.0, 0.0], ![0.0, 0.0, 1.0]]
def rotx1 (thetaV : F) : Mat3 F :=
  ![![1.0, 0.0, 0.0], ![0.0, Arith.cos thetaV, -Arith.sin thetaV], ![0.0, Arith.sin thetaV, Arith.cos thetaV]]
def rotz2 : Mat3 F := ![![0.0, -1.0, 0.0], ![1.0, 0.0, 0.0], ![0.0, 0.0, 1.0]]

-- SetRotations: the rotation from the lab to the box.
def rotMat_LB (thetaV : F) : Mat3 F := ((rotz2.mult (rotx1 thetaV)).mult roty0)

-- SetGeometry; the centre of the box is carried to the hall frame, which is
-- the lab frame.
def setGeometry (dmag d0 xoffset dx dy thetaV : F) : SBSBox F :=
  let rotation : Mat3 F := rotMat_LB thetaV
  let box : Box F := ⟨d0, xoffset, dx, dy, rotation.invert⟩
  { box with
    fDMag := dmag
    fThetaV := thetaV
    fRotMat_LB := rotation
    fOrigin := box.specToLab ⟨xoffset * 1.0e3, 0.0, d0 * 1.0e3⟩ }

variable (b : SBSBox F)

def labToSpec (v : V3 F) : V3 F := b.fRotMat_LB.apply v

def labToBox (v : V3 F) : V3 F :=
  let s := b.labToSpec v
  V3.onXY b.toBox.specToBox { s with z := s.z - b.fD0 * 1.0e3 }

def boxToLab (v : V3 F) : V3 F :=
  let s := b.toBox.boxToSpec v
  b.toBox.specToLab { s with z := s.z + b.fD0 * 1.0e3 }

-- Both are empty until the spectrometer angle is used.
def hallCenterToLab (v : V3 F) : V3 F := v
def labToHallCenter (v : V3 F) : V3 F := v

def hallCenterToBox (v : V3 F) : V3 F := b.labToBox (hallCenterToLab v)
def boxToHallCenter (v : V3 F) : V3 F := labToHallCenter (b.boxToLab v)
def hallCenterToSpec (v : V3 F) : V3 F := b.labToSpec (hallCenterToLab v)
def specToHallCenter (v : V3 F) : V3 F := labToHallCenter (b.toBox.specToLab v)

-- The overload of Contains for a position in the lab.
def containsLab (v : V3 F) : Bool :=
  let p := b.labToBox v
  b.toBox.contains p.x p.y

end SBSBox

structure BoxedPlane (F : Type) extends GEMPlane F where
  sbsBox : SBSBox F
  boxed : toGEMPlane.fBox = sbsBox.toBox

namespace BoxedPlane

def readGeometry (b : SBSBox F) (stripangle fSPitch : F) : BoxedPlane F :=
  { GEMPlane.readGeometry b.toBox stripangle fSPitch with
    sbsBox := b
    boxed := rfl }

variable (pl : BoxedPlane F)

def specToStrip (pos : F × F) : F × F := pl.toGEMPlane.planeToStrip (pl.fBox.specToBox pos)
def stripToSpec (pos : F × F) : F × F := pl.fBox.boxToSpecXY (pl.toGEMPlane.stripToPlane pos)
def labToStrip (v : V3 F) : V3 F := V3.onXY pl.toGEMPlane.planeToStrip (pl.sbsBox.labToBox v)
def stripToLab (v : V3 F) : V3 F := pl.sbsBox.boxToLab (V3.onXY pl.toGEMPlane.stripToPlane v)

end BoxedPlane

end

namespace Mat3

-- Cofactors against a row or a column: the determinant, or zero.
theorem cofactor_columns (m : Mat3 ℝ) (i j : Fin 3) :
    m.cofactor 0 i * m 0 j + m.cofactor 1 i * m 1 j + m.cofactor 2 i * m 2 j = if i = j then m.determinant else 0 := by
  fin_cases i <;> fin_cases j <;> simp [determinant, cofactor] <;> ring

theorem cofactor_rows (m : Mat3 ℝ) (i j : Fin 3) :
    m i 0 * m.cofactor j 0 + m i 1 * m.cofactor j 1 + m i 2 * m.cofactor j 2 = if i = j then m.determinant else 0 := by
  fin_cases i <;> fin_cases j <;> simp [determinant, cofactor] <;> ring

theorem invert_left (m : Mat3 ℝ) (regular : m.determinant ≠ 0) (i j : Fin 3) :
    m.invert.mult m i j = if i = j then 1 else 0 := by
  have columns := cofactor_columns m i j
  calc m.invert.mult m i j
      = (m.cofactor 0 i * m 0 j + m.cofactor 1 i * m 1 j + m.cofactor 2 i * m 2 j) / m.determinant := by
        simp only [mult, invert]
        ring
    _ = if i = j then 1 else 0 := by
        rw [columns]
        split
        · exact div_self regular
        · exact zero_div _

theorem invert_right (m : Mat3 ℝ) (regular : m.determinant ≠ 0) (i j : Fin 3) :
    m.mult m.invert i j = if i = j then 1 else 0 := by
  have rows := cofactor_rows m i j
  calc m.mult m.invert i j
      = (m i 0 * m.cofactor j 0 + m i 1 * m.cofactor j 1 + m i 2 * m.cofactor j 2) / m.determinant := by
        simp only [mult, invert]
        ring
    _ = if i = j then 1 else 0 := by
        rw [rows]
        split
        · exact div_self regular
        · exact zero_div _

theorem apply_mult (a b : Mat3 ℝ) (v : V3 ℝ) : a.apply (b.apply v) = (a.mult b).apply v := by
  simp only [apply, mult, V3.mk.injEq]
  refine ⟨?_, ?_, ?_⟩ <;> ring

theorem apply_identity (m : Mat3 ℝ) (identity : ∀ i j, m i j = if i = j then 1 else 0) (v : V3 ℝ) : m.apply v = v := by
  simp [apply, identity]

end Mat3

namespace SBSBox

theorem rot_mat_entries (thetaV : ℝ) :
    (rotMat_LB thetaV : Mat3 ℝ) = ![![0, -Real.cos thetaV, Real.sin thetaV], ![1, 0, 0], ![0, Real.sin thetaV, Real.cos thetaV]] := by
  funext i j
  have one : (1.0 : ℝ) = 1 := by norm_num
  have zero : (0.0 : ℝ) = 0 := by norm_num
  fin_cases i <;> fin_cases j <;>
    simp [rotMat_LB, Mat3.mult, roty0, rotx1, rotz2, one, zero, Arith.sin, Arith.cos]

theorem rot_mat_determinant (thetaV : ℝ) : (rotMat_LB thetaV : Mat3 ℝ).determinant = 1 := by
  have expanded : (rotMat_LB thetaV : Mat3 ℝ).determinant = Real.sin thetaV ^ 2 + Real.cos thetaV ^ 2 := by
    rw [rot_mat_entries]
    simp [Mat3.determinant, Mat3.cofactor, -Real.sin_sq_add_cos_sq]
    ring
  rw [expanded, Real.sin_sq_add_cos_sq]

theorem rot_mat_apply (thetaV : ℝ) (v : V3 ℝ) : (rotMat_LB thetaV : Mat3 ℝ).apply v =
    ⟨-(Real.cos thetaV * v.y) + Real.sin thetaV * v.z, v.x, Real.sin thetaV * v.y + Real.cos thetaV * v.z⟩ := by
  rw [rot_mat_entries]
  simp [Mat3.apply]

theorem rot_mat_mag (thetaV : ℝ) (v : V3 ℝ) : ((rotMat_LB thetaV : Mat3 ℝ).apply v).mag = v.mag := by
  have unit := Real.sin_sq_add_cos_sq thetaV
  simp only [V3.mag, rot_mat_apply]
  congr 1
  linear_combination (v.y * v.y + v.z * v.z) * unit

end SBSBox

theorem apply_sub (m : Mat3 ℝ) (v w : V3 ℝ) : (m.apply v).sub (m.apply w) = m.apply (v.sub w) := by
  simp only [Mat3.apply, V3.sub, V3.mk.injEq]
  refine ⟨?_, ?_, ?_⟩ <;> ring

theorem turn_keeps (c s : ℝ) (unit : c * c + s * s = 1) (x y : ℝ) :
    (c * x - s * y) * (c * x - s * y) + (s * x + c * y) * (s * x + c * y) = x * x + y * y := by
  linear_combination (x * x + y * y) * unit

theorem plane_motions (f g : ℝ × ℝ → ℝ × ℝ) (motions : InverseMotions planeDist planeDist f g) :
    InverseMotions V3.dist V3.dist (V3.onXY f) (V3.onXY g) := by
  refine inverse_motions _ _ _ _ (fun v => ?_) (fun v => ?_) (fun v w => ?_)
  · simp [V3.onXY, motions.back]
  · simp [V3.onXY, motions.forth]
  · have kept := motions.keeps (v.x, v.y) (w.x, w.y)
    have squares := (Real.sqrt_inj (add_nonneg (mul_self_nonneg _) (mul_self_nonneg _))
      (add_nonneg (mul_self_nonneg _) (mul_self_nonneg _))).mp kept
    simp only [V3.dist, V3.mag, V3.sub, V3.onXY]
    rw [squares]

theorem turn_motions (pl : GEMPlane ℝ) (unit : pl.fCBS * pl.fCBS + pl.fSBS * pl.fSBS = 1) :
    InverseMotions planeDist planeDist pl.planeToStrip pl.stripToPlane := by
  refine inverse_motions _ _ _ _ (fun p => ?_) (fun p => ?_) (fun p q => ?_)
  · refine Prod.ext ?_ ?_
    · change pl.fCBS * (pl.fCBS * p.1 - pl.fSBS * p.2) + pl.fSBS * (pl.fSBS * p.1 + pl.fCBS * p.2) = p.1
      linear_combination p.1 * unit
    · change -pl.fSBS * (pl.fCBS * p.1 - pl.fSBS * p.2) + pl.fCBS * (pl.fSBS * p.1 + pl.fCBS * p.2) = p.2
      linear_combination p.2 * unit
  · refine Prod.ext ?_ ?_
    · change pl.fCBS * (pl.fCBS * p.1 + pl.fSBS * p.2) - pl.fSBS * (-pl.fSBS * p.1 + pl.fCBS * p.2) = p.1
      linear_combination p.1 * unit
    · change pl.fSBS * (pl.fCBS * p.1 + pl.fSBS * p.2) + pl.fCBS * (-pl.fSBS * p.1 + pl.fCBS * p.2) = p.2
      linear_combination p.2 * unit
  · have turned := turn_keeps pl.fCBS pl.fSBS unit (p.1 - q.1) (p.2 - q.2)
    simp only [planeDist, GEMPlane.planeToStrip]
    congr 1
    linear_combination turned

theorem offset_motions (b : Box ℝ) : InverseMotions planeDist planeDist b.specToBox b.boxToSpecXY := by
  refine inverse_motions _ _ _ _ (fun p => ?_) (fun p => ?_) (fun p q => ?_)
  · exact Prod.ext (sub_add_cancel _ _) rfl
  · exact Prod.ext (add_sub_cancel_right _ _) rfl
  · simp only [planeDist, Box.specToBox, sub_sub_sub_cancel_right]

theorem distance_motions (d : ℝ) : InverseMotions V3.dist V3.dist (fun v : V3 ℝ => { v with z := v.z - d })
    (fun v : V3 ℝ => { v with z := v.z + d }) := by
  refine inverse_motions _ _ _ _ (fun v => ?_) (fun v => ?_) (fun v w => ?_)
  · simp
  · simp
  · simp only [V3.dist, V3.mag, V3.sub, sub_sub_sub_cancel_right]

section
variable (dmag d0 xoffset dx dy thetaV : ℝ)

theorem lab_spec_motions :
    let b := SBSBox.setGeometry dmag d0 xoffset dx dy thetaV
    InverseMotions V3.dist V3.dist b.labToSpec b.toBox.specToLab := by
  intro b
  have regular : b.fRotMat_LB.determinant ≠ 0 := by
    rw [show b.fRotMat_LB.determinant = 1 from SBSBox.rot_mat_determinant thetaV]
    exact one_ne_zero
  refine inverse_motions _ _ _ _ (fun v => ?_) (fun v => ?_) (fun v w => ?_)
  · exact (Mat3.apply_mult _ _ v).trans (Mat3.apply_identity _ (Mat3.invert_left _ regular) v)
  · exact (Mat3.apply_mult _ _ v).trans (Mat3.apply_identity _ (Mat3.invert_right _ regular) v)
  · change ((b.fRotMat_LB.apply v).sub (b.fRotMat_LB.apply w)).mag = (v.sub w).mag
    rw [apply_sub]
    exact SBSBox.rot_mat_mag thetaV (v.sub w)

theorem lab_box_motions :
    let b := SBSBox.setGeometry dmag d0 xoffset dx dy thetaV
    InverseMotions V3.dist V3.dist b.labToBox b.boxToLab := by
  intro b
  have near := motions_chain _ _ _ _ _ _ _ (lab_spec_motions dmag d0 xoffset dx dy thetaV) (distance_motions (b.fD0 * 1.0e3))
  have far := motions_chain _ _ _ _ _ _ _ near (plane_motions _ _ (offset_motions b.toBox))
  exact far

theorem hall_spec_motions :
    let b := SBSBox.setGeometry dmag d0 xoffset dx dy thetaV
    InverseMotions V3.dist V3.dist b.hallCenterToSpec b.specToHallCenter :=
  lab_spec_motions dmag d0 xoffset dx dy thetaV

-- The frame conversions of a box and of a readout plane in it come in pairs
-- of inverse rigid motions.
theorem frame_conversions_rigid (stripangle fSPitch : ℝ) :
    let b : SBSBox ℝ := SBSBox.setGeometry dmag d0 xoffset dx dy thetaV
    let pl := BoxedPlane.readGeometry b stripangle fSPitch
    InverseMotions V3.dist V3.dist b.labToBox b.boxToLab ∧
      InverseMotions V3.dist V3.dist b.labToSpec b.toBox.specToLab ∧
      InverseMotions V3.dist V3.dist b.hallCenterToBox b.boxToHallCenter ∧
      InverseMotions planeDist planeDist pl.specToStrip pl.stripToSpec ∧
      InverseMotions V3.dist V3.dist pl.labToStrip pl.stripToLab := by
  intro b pl
  have box := lab_box_motions dmag d0 xoffset dx dy thetaV
  have turn := turn_motions pl.toGEMPlane (GEMPlane.read_geometry_rotation b.toBox stripangle fSPitch)
  have spec := motions_chain _ _ _ _ _ _ _ (offset_motions pl.fBox) turn
  have strip := motions_chain _ _ _ _ _ _ _ box (plane_motions _ _ turn)
  exact ⟨box, lab_spec_motions dmag d0 xoffset dx dy thetaV, box, spec, strip⟩

-- The box is centred where SetGeometry puts its origin.
theorem origin_in_box :
    let b := SBSBox.setGeometry dmag d0 xoffset dx dy thetaV
    b.hallCenterToBox b.fOrigin = ⟨0, 0, 0⟩ := by
  intro b
  have centre : b.fOrigin = b.boxToHallCenter ⟨0, 0, 0⟩ := by
    have zero : (0.0 : ℝ) = 0 := by norm_num
    change b.toBox.specToLab ⟨b.fXOffset * 1.0e3, 0.0, b.fD0 * 1.0e3⟩ =
      b.toBox.specToLab ⟨0 + b.fXOffset * 1.0e3, 0, 0 + b.fD0 * 1.0e3⟩
    rw [zero, zero_add, zero_add]
  rw [centre]
  exact (lab_box_motions dmag d0 xoffset dx dy thetaV).forth ⟨0, 0, 0⟩

-- Contains of a lab point reads the millimetres of the box frame as if they
-- were metres.
theorem contains_lab (x y : ℝ) :
    let b := SBSBox.setGeometry dmag d0 xoffset dx dy thetaV
    b.containsLab (b.boxToLab ⟨x, y, 0⟩) = b.toBox.contains x y := by
  intro b
  have back := (lab_box_motions dmag d0 xoffset dx dy thetaV).forth ⟨x, y, 0⟩
  rw [SBSBox.containsLab, back]

theorem contains_lab_agrees_iff (x y : ℝ) :
    let b : SBSBox ℝ := SBSBox.setGeometry dmag d0 xoffset dx dy thetaV
    b.containsLab (b.boxToLab ⟨x, y, 0⟩) = b.toBox.contains (x / 1000) (y / 1000) ↔
      (|x| ≤ dx / 2 ∧ |y| ≤ dy / 2) ∨ ¬ (|x| / 1000 ≤ dx / 2 ∧ |y| / 1000 ≤ dy / 2) := by
  intro b
  have lab : b.containsLab (b.boxToLab ⟨x, y, 0⟩) = b.toBox.contains x y := contains_lab dmag d0 xoffset dx dy thetaV x y
  have metres : b.toBox.contains (x / 1000) (y / 1000) = true ↔ |x| / 1000 ≤ dx / 2 ∧ |y| / 1000 ≤ dy / 2 := by
    have positive : |(1000 : ℝ)| = 1000 := abs_of_pos (by norm_num)
    rw [GEMPlane.contains_iff, abs_div, abs_div, positive]
    rfl
  have millimetres : b.toBox.contains x y = true ↔ |x| ≤ dx / 2 ∧ |y| ≤ dy / 2 := GEMPlane.contains_iff _ x y
  have smaller : |x| ≤ dx / 2 ∧ |y| ≤ dy / 2 → |x| / 1000 ≤ dx / 2 ∧ |y| / 1000 ≤ dy / 2 := by
    intro inside
    exact ⟨(div_le_self (abs_nonneg x) (by norm_num)).trans inside.1, (div_le_self (abs_nonneg y) (by norm_num)).trans inside.2⟩
  rw [lab, Bool.eq_iff_iff, metres, millimetres]
  tauto

end

theorem near_point_rejected :
    let b : SBSBox ℝ := SBSBox.setGeometry 1 1 0 1 1 0
    b.containsLab (b.boxToLab ⟨100, 0, 0⟩) = false ∧ b.toBox.contains (100 / 1000) (0 / 1000) = true := by
  intro b
  have lab : b.containsLab (b.boxToLab ⟨100, 0, 0⟩) = b.toBox.contains 100 0 := contains_lab 1 1 0 1 1 0 100 0
  have size : b.fDX = 1 ∧ b.fDY = 1 := ⟨rfl, rfl⟩
  refine ⟨?_, ?_⟩
  · rw [lab, ← Bool.not_eq_true, GEMPlane.contains_iff, size.1]
    norm_num
  · rw [GEMPlane.contains_iff, size.1, size.2]
    norm_num [abs_of_pos]

end Solgem
