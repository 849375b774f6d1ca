import Mathlib.Analysis.SpecialFunctions.Complex.Arg
import Mathlib.Analysis.SpecialFunctions.Pow.Real
import Mathlib.Analysis.SpecialFunctions.Trigonometric.Inverse
import Mathlib.Tactic.LinearCombination
import Solgem.PrimaryTrack

set_option autoImplicit false

namespace Solgem

-- The functions of the mathematics library that only the decoder calls.
class Libm (F : Type) extends Arith F where
  asin : F → F
  acos : F → F
  atan2 : F → F → F
  pow : F → F → F

noncomputable instance : Libm ℝ where
  asin := Real.arcsin
  acos := Real.arccos
  atan2 y x := Complex.arg ⟨x, y⟩
  pow x y := x ^ y

section
variable {F : Type} [Arith F]

def V3.dot (a b : V3 F) : F := a.x * b.x + a.y * b.y + a.z * b.z

def V3.cross (a b : V3 F) : V3 F :=
  ⟨a.y * b.z - b.y * a.z, a.z * b.x - b.z * a.x, a.x * b.y - b.x * a.y⟩

-- The axes of an arm of the experiment, in the coordinates of the hall.
structure Axes (F : Type) where
  xaxis : V3 F
  yaxis : V3 F
  zaxis : V3 F

def Axes.components (a : Axes F) (v : V3 F) : V3 F := ⟨v.dot a.xaxis, v.dot a.yaxis, v.dot a.zaxis⟩

def Axes.vector (a : Axes F) (v : V3 F) : V3 F := ((a.xaxis.smul v.x).add (a.yaxis.smul v.y)).add (a.zaxis.smul v.z)

def degToRad : F := Arith.pi / 180.0

def th_earm : F := 29.0 * degToRad

def th_sbs : F := 16.9 * degToRad

def ECALAxes : Axes F :=
  let zaxis : V3 F := ⟨Arith.sin th_earm, 0.0, Arith.cos th_earm⟩
  let yaxis : V3 F := ⟨0.0, 1.0, 0.0⟩
  ⟨(yaxis.cross zaxis).unit, yaxis, zaxis⟩

def SBSAxes : Axes F :=
  let zaxis : V3 F := ⟨-Arith.sin th_sbs, 0.0, Arith.cos th_sbs⟩
  let xaxis : V3 F := ⟨0.0, -1.0, 0.0⟩
  ⟨xaxis, (zaxis.cross xaxis).unit, zaxis⟩

-- ehat_final_global, from the slopes the track fit found in the electron arm.
def ehatFinalGlobal (eXp eYp : F) : V3 F := ECALAxes.vector (V3.unit ⟨eXp, eYp, 1.0⟩)

end

def k0 {F : Type} [Arith F] : F := 11.0

def Mp {F : Type} [Arith F] : F := 0.938272

-- The proton an electron of the beam hits elastically.
structure RecoilProton (F : Type) where
  kp : F
  pp : F
  pvect : V3 F

def recoilProton {F : Type} [Libm F] (ehat : V3 F) : RecoilProton F :=
  let thetak := Libm.acos ehat.z
  let phik := Libm.atan2 ehat.y ehat.x
  let phip := phik + Arith.pi
  let kp := k0 * Mp / (k0 * (1.0 - Arith.cos thetak) + Mp)
  let pp := Arith.sqrt (Libm.pow (k0 - kp + Mp) 2.0 - Mp * Mp)
  let thetap := Libm.asin (kp * Arith.sin thetak / pp)
  ⟨kp, pp, ⟨pp * Arith.sin thetap * Arith.cos phip, pp * Arith.sin thetap * Arith.sin phip, pp * Arith.cos thetap⟩⟩

-- The proton at the target as the optics of the spectrometer takes it.
structure TargetTrack (F : Type) where
  xptar : F
  yptar : F
  ytar : F
  xtar : F
  pp : F

def targetTrack {F : Type} [Arith F] (vz : F) (p : RecoilProton F) : TargetTrack F :=
  let pvect_SBS := SBSAxes.components p.pvect
  let vertex_SBS := SBSAxes.components ⟨0.0, 0.0, vz⟩
  let yptar := pvect_SBS.y / pvect_SBS.z
  ⟨pvect_SBS.x / pvect_SBS.z, yptar, vertex_SBS.y - yptar * vertex_SBS.z, 0.0, p.pp⟩

theorem unit_vector (a : V3 ℝ) (positive : 0 < a.dot a) : a.unit = a.smul (1 / √(a.dot a)) := by
  have sized : (0.0 : ℝ) < a.x * a.x + a.y * a.y + a.z * a.z := by
    norm_num
    exact positive
  rw [V3.unit]
  simp only [if_pos sized]
  norm_num [V3.smul, V3.dot, Arith.sqrt]

theorem unit_length (a : V3 ℝ) (positive : 0 < a.dot a) : a.unit.dot a.unit = 1 := by
  have root : √(a.dot a) * √(a.dot a) = a.dot a := Real.mul_self_sqrt positive.le
  have nonzero : √(a.dot a) ≠ 0 := (Real.sqrt_pos.mpr positive).ne'
  have scaled : (a.smul (1 / √(a.dot a))).dot (a.smul (1 / √(a.dot a))) = a.dot a * (1 / √(a.dot a)) ^ 2 := by
    simp only [V3.smul, V3.dot]
    ring
  rw [unit_vector a positive, scaled, div_pow, one_pow, pow_two, root, mul_one_div, div_self positive.ne']

theorem unit_of_length_one (a : V3 ℝ) (one : a.dot a = 1) : a.unit = a := by
  rw [unit_vector a (one ▸ one_pos), one, Real.sqrt_one, div_one]
  simp [V3.smul]

theorem ecal_axes :
    (ECALAxes : Axes ℝ) = ⟨⟨Real.cos th_earm, 0, -Real.sin th_earm⟩, ⟨0, 1, 0⟩, ⟨Real.sin th_earm, 0, Real.cos th_earm⟩⟩ := by
  have circle := Real.cos_sq_add_sin_sq (th_earm : ℝ)
  have xaxis : V3.cross (⟨0.0, 1.0, 0.0⟩ : V3 ℝ) ⟨Real.sin th_earm, 0.0, Real.cos th_earm⟩ = ⟨Real.cos th_earm, 0, -Real.sin th_earm⟩ := by
    norm_num [V3.cross]
  have one : (⟨Real.cos th_earm, 0, -Real.sin th_earm⟩ : V3 ℝ).dot ⟨Real.cos th_earm, 0, -Real.sin th_earm⟩ = 1 := by
    simp only [V3.dot]
    linarith
  have axes : (ECALAxes : Axes ℝ) = ⟨(V3.cross (⟨0.0, 1.0, 0.0⟩ : V3 ℝ) ⟨Real.sin th_earm, 0.0, Real.cos th_earm⟩).unit,
      ⟨0.0, 1.0, 0.0⟩, ⟨Real.sin th_earm, 0.0, Real.cos th_earm⟩⟩ := rfl
  rw [axes, xaxis, unit_of_length_one _ one]
  norm_num

theorem sbs_axes : (SBSAxes : Axes ℝ) = ⟨⟨0, -1, 0⟩, ⟨Real.cos th_sbs, 0, Real.sin th_sbs⟩, ⟨-Real.sin th_sbs, 0, Real.cos th_sbs⟩⟩ := by
  have circle := Real.cos_sq_add_sin_sq (th_sbs : ℝ)
  have yaxis : V3.cross (⟨-Real.sin th_sbs, 0.0, Real.cos th_sbs⟩ : V3 ℝ) ⟨0.0, -1.0, 0.0⟩ = ⟨Real.cos th_sbs, 0, Real.sin th_sbs⟩ := by
    norm_num [V3.cross]
  have one : (⟨Real.cos th_sbs, 0, Real.sin th_sbs⟩ : V3 ℝ).dot ⟨Real.cos th_sbs, 0, Real.sin th_sbs⟩ = 1 := by
    simp only [V3.dot]
    linarith
  have axes : (SBSAxes : Axes ℝ) = ⟨⟨0.0, -1.0, 0.0⟩,
      (V3.cross (⟨-Real.sin th_sbs, 0.0, Real.cos th_sbs⟩ : V3 ℝ) ⟨0.0, -1.0, 0.0⟩).unit,
      ⟨-Real.sin th_sbs, 0.0, Real.cos th_sbs⟩⟩ := rfl
  rw [axes, yaxis, unit_of_length_one _ one]
  norm_num

theorem ecal_vector_dot (v w : V3 ℝ) : ((ECALAxes : Axes ℝ).vector v).dot (ECALAxes.vector w) = v.dot w := by
  have circle := Real.cos_sq_add_sin_sq (th_earm : ℝ)
  rw [ecal_axes]
  simp only [Axes.vector, V3.dot, V3.add, V3.smul]
  linear_combination (v.x * w.x + v.z * w.z) * circle

theorem sbs_components_dot (v w : V3 ℝ) : ((SBSAxes : Axes ℝ).components v).dot (SBSAxes.components w) = v.dot w := by
  have circle := Real.cos_sq_add_sin_sq (th_sbs : ℝ)
  rw [sbs_axes]
  simp only [Axes.components, V3.dot]
  linear_combination (v.x * w.x + v.z * w.z) * circle

theorem slopes_positive (eXp eYp : ℝ) : 0 < V3.dot (⟨eXp, eYp, 1.0⟩ : V3 ℝ) ⟨eXp, eYp, 1.0⟩ := by
  have squares := add_nonneg (mul_self_nonneg eXp) (mul_self_nonneg eYp)
  norm_num [V3.dot]
  linarith

theorem electron_direction_length (eXp eYp : ℝ) : (ehatFinalGlobal eXp eYp).dot (ehatFinalGlobal eXp eYp) = 1 := by
  rw [ehatFinalGlobal, ecal_vector_dot]
  exact unit_length _ (slopes_positive eXp eYp)

theorem arm_cos_positive : 0 < Real.cos th_earm := by
  have pi := Real.pi_pos
  refine Real.cos_pos_of_mem_Ioo ⟨?_, ?_⟩
  · norm_num [th_earm, degToRad, Arith.pi]
    linarith
  · norm_num [th_earm, degToRad, Arith.pi]
    linarith

-- Only the slopes of the beam line point the electron along the beam.
theorem electron_off_beam (eXp eYp : ℝ) (off_beam : eXp ≠ -Real.tan th_earm ∨ eYp ≠ 0) : (ehatFinalGlobal eXp eYp).z < 1 := by
  have one := electron_direction_length eXp eYp
  have below : (ehatFinalGlobal eXp eYp).z ≤ 1 := by
    simp only [V3.dot] at one
    nlinarith [mul_self_nonneg (ehatFinalGlobal eXp eYp).x, mul_self_nonneg (ehatFinalGlobal eXp eYp).y]
  refine lt_of_le_of_ne below (fun along => ?_)
  have flat : (ehatFinalGlobal eXp eYp).x * (ehatFinalGlobal eXp eYp).x +
      (ehatFinalGlobal eXp eYp).y * (ehatFinalGlobal eXp eYp).y = 0 := by
    simp only [V3.dot, along] at one
    linarith
  obtain ⟨x, y⟩ := mul_self_add_mul_self_eq_zero.mp flat
  have scale : 1 / √(V3.dot (⟨eXp, eYp, 1.0⟩ : V3 ℝ) ⟨eXp, eYp, 1.0⟩) ≠ 0 :=
    one_div_ne_zero (Real.sqrt_pos.mpr (slopes_positive eXp eYp)).ne'
  rw [ehatFinalGlobal, ecal_axes, unit_vector _ (slopes_positive eXp eYp)] at x y
  generalize 1 / √(V3.dot (⟨eXp, eYp, 1.0⟩ : V3 ℝ) ⟨eXp, eYp, 1.0⟩) = scaling at x y scale
  have vertical : eYp * scaling = 0 := by simpa [Axes.vector, V3.add, V3.smul] using y
  have horizontal : (Real.cos th_earm * eXp + Real.sin th_earm) * scaling = 0 := by
    norm_num [Axes.vector, V3.add, V3.smul] at x
    linear_combination x
  have level : eYp = 0 := (mul_eq_zero.mp vertical).resolve_right scale
  have slope : eXp = -Real.tan th_earm := by
    have crossed := (mul_eq_zero.mp horizontal).resolve_right scale
    rw [Real.tan_eq_sin_div_cos, ← neg_div, eq_div_iff arm_cos_positive.ne']
    linarith
  cases off_beam with
  | inl other => exact other slope
  | inr other => exact other level

-- The azimuth of a unit vector turns its polar sine back into x and y.
theorem azimuth_components (e : V3 ℝ) (one : e.dot e = 1) :
    √(1 - e.z ^ 2) * Real.cos (Complex.arg ⟨e.x, e.y⟩) = e.x ∧ √(1 - e.z ^ 2) * Real.sin (Complex.arg ⟨e.x, e.y⟩) = e.y := by
  have size : √(1 - e.z ^ 2) = ‖(⟨e.x, e.y⟩ : ℂ)‖ := by
    rw [Complex.norm_def, Complex.normSq_mk]
    congr 1
    simp only [V3.dot] at one
    linarith
  rw [size]
  exact ⟨Complex.norm_mul_cos_arg ⟨e.x, e.y⟩, Complex.norm_mul_sin_arg ⟨e.x, e.y⟩⟩

-- Elastic scattering of a beam of energy E on a mass M at rest, with c the
-- cosine of the scattering angle.
section
variable (E M c : ℝ) (beam : 0 < E) (mass : 0 < M) (low : -1 ≤ c) (high : c < 1)
include beam mass high

theorem scattered_energy : 0 < E * M / (E * (1 - c) + M) ∧ E * M / (E * (1 - c) + M) < E ∧
    E * M / (E * (1 - c) + M) * (E * (1 - c) + M) = E * M := by
  have lost : 0 < E * (1 - c) := mul_pos beam (by linarith)
  have denominator : 0 < E * (1 - c) + M := by linarith
  refine ⟨div_pos (mul_pos beam mass) denominator, ?_, div_mul_cancel₀ _ denominator.ne'⟩
  rw [div_lt_iff₀ denominator]
  nlinarith [mul_pos beam lost]

include low

-- The momentum of the recoil is what the electron has lost, and so is its
-- energy.
theorem recoil_momentum (kp pp : ℝ) (scattered : kp = E * M / (E * (1 - c) + M)) (recoil : pp = √((E - kp + M) ^ 2 - M * M)) :
    pp ^ 2 = (E - kp * c) ^ 2 + (kp * √(1 - c ^ 2)) ^ 2 ∧ 0 < pp ∧ √(pp ^ 2 + M ^ 2) = E - kp + M ∧
      Real.sin (Real.arcsin (kp * √(1 - c ^ 2) / pp)) * pp = kp * √(1 - c ^ 2) ∧
      Real.cos (Real.arcsin (kp * √(1 - c ^ 2) / pp)) * pp = E - kp * c := by
  obtain ⟨positive, below, product⟩ := scattered_energy E M c beam mass high
  rw [← scattered] at positive below product
  have lost : 0 < E - kp := by linarith
  have inside : 0 < (E - kp + M) ^ 2 - M * M := by nlinarith
  have sine : √(1 - c ^ 2) ^ 2 = 1 - c ^ 2 := Real.sq_sqrt (by nlinarith)
  have square : pp ^ 2 = (E - kp + M) ^ 2 - M * M := by rw [recoil, Real.sq_sqrt inside.le]
  have momentum : pp ^ 2 = (E - kp * c) ^ 2 + (kp * √(1 - c ^ 2)) ^ 2 := by
    rw [square, mul_pow, sine]
    linear_combination -2 * product
  have size : 0 < pp := by
    rw [recoil]
    exact Real.sqrt_pos.mpr inside
  have forward : 0 < E - kp * c := by nlinarith
  have across : 0 ≤ kp * √(1 - c ^ 2) := mul_nonneg positive.le (Real.sqrt_nonneg _)
  have ratio : kp * √(1 - c ^ 2) / pp ≤ 1 := by
    rw [div_le_one size]
    exact abs_le_of_sq_le_sq' (by nlinarith) size.le |>.2
  refine ⟨momentum, size, ?_, ?_, ?_⟩
  · rw [square, show (E - kp + M) ^ 2 - M * M + M ^ 2 = (E - kp + M) ^ 2 by ring]
    exact Real.sqrt_sq (by linarith)
  · rw [Real.sin_arcsin (by linarith [div_nonneg across size.le]) ratio, div_mul_cancel₀ _ size.ne']
  · have rest : 1 - (kp * √(1 - c ^ 2) / pp) ^ 2 = ((E - kp * c) / pp) ^ 2 := by
      rw [div_pow, div_pow, eq_div_iff (pow_pos size 2).ne', sub_mul, div_mul_cancel₀ _ (pow_pos size 2).ne', one_mul, momentum]
      ring
    rw [Real.cos_arcsin, rest, Real.sqrt_sq (div_nonneg forward.le size.le), div_mul_cancel₀ _ size.ne']

end

-- The proton takes the momentum and the energy the electron has lost, and the
-- spectrometer's axes keep its size.
theorem recoil_proton_balances (eXp eYp : ℝ) (off_beam : eXp ≠ -Real.tan th_earm ∨ eYp ≠ 0) :
    let ehat := ehatFinalGlobal eXp eYp
    let p := recoilProton ehat
    p.pvect.add (ehat.smul p.kp) = ⟨0, 0, k0⟩ ∧ p.kp + √(p.pvect.dot p.pvect + Mp ^ 2) = k0 + Mp ∧ 0 < p.kp ∧ p.kp < k0 ∧
      0 < p.pp ∧ (SBSAxes.components p.pvect).dot (SBSAxes.components p.pvect) = p.pp ^ 2 := by
  intro ehat p
  have one : ehat.dot ehat = 1 := electron_direction_length eXp eYp
  have high : ehat.z < 1 := electron_off_beam eXp eYp off_beam
  have low : -1 ≤ ehat.z := by
    simp only [V3.dot] at one
    nlinarith [mul_self_nonneg ehat.x, mul_self_nonneg ehat.y]
  have beam : (0 : ℝ) < k0 := by norm_num [k0]
  have mass : (0 : ℝ) < Mp := by norm_num [Mp]
  have unit : (1.0 : ℝ) = 1 := by norm_num
  have two : (2.0 : ℝ) = 2 := by norm_num
  have scattered : p.kp = k0 * Mp / (k0 * (1 - ehat.z) + Mp) := by
    change k0 * Mp / (k0 * (1.0 - Real.cos (Real.arccos ehat.z)) + Mp) = _
    rw [Real.cos_arccos low high.le, unit]
  have recoil : p.pp = √((k0 - p.kp + Mp) ^ 2 - Mp * Mp) := by
    change √((k0 - p.kp + Mp) ^ (2.0 : ℝ) - Mp * Mp) = _
    rw [two, Real.rpow_two]
  obtain ⟨positive, below, _⟩ := scattered_energy k0 Mp ehat.z beam mass high
  obtain ⟨momentum, size, energy, across, forward⟩ := recoil_momentum k0 Mp ehat.z beam mass low high p.kp p.pp scattered recoil
  obtain ⟨azimuthx, azimuthy⟩ := azimuth_components ehat one
  have vector : p.pvect = ⟨-(p.kp * ehat.x), -(p.kp * ehat.y), k0 - p.kp * ehat.z⟩ := by
    change (⟨p.pp * Real.sin (Real.arcsin (p.kp * Real.sin (Real.arccos ehat.z) / p.pp)) *
        Real.cos (Complex.arg ⟨ehat.x, ehat.y⟩ + Real.pi),
      p.pp * Real.sin (Real.arcsin (p.kp * Real.sin (Real.arccos ehat.z) / p.pp)) * Real.sin (Complex.arg ⟨ehat.x, ehat.y⟩ + Real.pi),
      p.pp * Real.cos (Real.arcsin (p.kp * Real.sin (Real.arccos ehat.z) / p.pp))⟩ : V3 ℝ) = _
    rw [Real.sin_arccos, Real.cos_add_pi, Real.sin_add_pi, mul_comm p.pp, mul_comm p.pp (Real.cos _), across, forward]
    congr 1
    · linear_combination -p.kp * azimuthx
    · linear_combination -p.kp * azimuthy
  have length : p.pvect.dot p.pvect = p.pp ^ 2 := by
    have sine : √(1 - ehat.z ^ 2) ^ 2 = 1 - ehat.z ^ 2 := Real.sq_sqrt (by nlinarith)
    rw [vector, momentum, mul_pow, sine]
    simp only [V3.dot] at one ⊢
    linear_combination p.kp ^ 2 * one
  refine ⟨?_, ?_, scattered ▸ positive, scattered ▸ below, size, ?_⟩
  · rw [vector]
    simp only [V3.add, V3.smul, V3.mk.injEq]
    exact ⟨by ring, by ring, by ring⟩
  · rw [length, energy]
    ring
  · rw [sbs_components_dot, length]

theorem recoil_proton_balances_upward :
    let ehat := ehatFinalGlobal (0 : ℝ) 1
    let p := recoilProton ehat
    p.pvect.add (ehat.smul p.kp) = ⟨0, 0, k0⟩ ∧ p.kp + √(p.pvect.dot p.pvect + Mp ^ 2) = k0 + Mp ∧ 0 < p.kp ∧ p.kp < k0 ∧
      0 < p.pp ∧ (SBSAxes.components p.pvect).dot (SBSAxes.components p.pvect) = p.pp ^ 2 :=
  recoil_proton_balances 0 1 (.inr one_ne_zero)

end Solgem
