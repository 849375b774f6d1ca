import Mathlib.Tactic.Linarith
import Solgem.PointDifferences

set_option autoImplicit false

namespace Solgem

open Lib

-- The component of a unit vector along z, and where it is whole.
theorem unit_forward (p : V3 ℝ) : p.unit.z ≤ 1 ∧ (p.unit.z = 1 ↔ p.x = 0 ∧ p.y = 0 ∧ 0 < p.z) := by
  have zero : (0.0 : ℝ) = 0 := by norm_num
  have one : (1.0 : ℝ) = 1 := by norm_num
  by_cases moving : 0 < p.x * p.x + p.y * p.y + p.z * p.z
  · have size : 0 < √(p.x * p.x + p.y * p.y + p.z * p.z) := Real.sqrt_pos.mpr moving
    have squared : √(p.x * p.x + p.y * p.y + p.z * p.z) * √(p.x * p.x + p.y * p.y + p.z * p.z) = p.x * p.x + p.y * p.y + p.z * p.z :=
      Real.mul_self_sqrt moving.le
    have along : p.unit.z = p.z / √(p.x * p.x + p.y * p.y + p.z * p.z) := by
      change p.z * (if (0.0 : ℝ) < _ then 1.0 / √(p.x * p.x + p.y * p.y + p.z * p.z) else 1.0) = _
      rw [zero, if_pos moving, one, mul_one_div]
    rw [along, div_le_one size, div_eq_one_iff_eq size.ne']
    refine ⟨Real.le_sqrt_of_sq_le (by nlinarith [mul_self_nonneg p.x, mul_self_nonneg p.y]), fun whole => ?_, fun forward => ?_⟩
    · rw [← whole] at squared size
      refine ⟨?_, ?_, size⟩
      · exact mul_self_eq_zero.mp (le_antisymm (by nlinarith [mul_self_nonneg p.y]) (mul_self_nonneg p.x))
      · exact mul_self_eq_zero.mp (le_antisymm (by nlinarith [mul_self_nonneg p.x]) (mul_self_nonneg p.y))
    · obtain ⟨x, y, z⟩ := forward
      rw [x, y, mul_zero, zero_add, zero_add, Real.sqrt_mul_self z.le]
  · have still : p.x * p.x + p.y * p.y + p.z * p.z = 0 := by
      refine le_antisymm (not_lt.mp moving) ?_
      nlinarith [mul_self_nonneg p.x, mul_self_nonneg p.y, mul_self_nonneg p.z]
    have rest : p.z = 0 :=
      mul_self_eq_zero.mp (le_antisymm (by nlinarith [mul_self_nonneg p.x, mul_self_nonneg p.y]) (mul_self_nonneg p.z))
    have along : p.unit.z = 0 := by
      change p.z * _ = _
      rw [rest, zero_mul]
    rw [along]
    refine ⟨zero_le_one, fun whole => absurd whole zero_ne_one, fun forward => ?_⟩
    rw [rest] at forward
    exact absurd forward.2.2 (lt_irrefl 0)

section
variable {S : Type}

-- Where a back track starts: at its hit in the first plane, at the origin when
-- the hit is in front of the first plane, and else back along the momentum.
structure Projected (fZ0 : ℝ) (c : GEMCluster ℝ) (b : SimBackTrack ℝ) : Prop where
  first : c.fPlane ≤ 0 → b.fOrigin = c.fMCpos ∧ b.fMomentum = c.fP
  front : 0 < c.fPlane → c.fMCpos.z ≤ fZ0 → b.fOrigin = ⟨0, 0, 0⟩ ∧ b.fMomentum = ⟨0, 0, 0⟩
  behind : 0 < c.fPlane → fZ0 < c.fMCpos.z → b.fMomentum = c.fP ∧ fZ0 ≤ b.fOrigin.z ∧
    (b.fOrigin.z = fZ0 ↔ c.fP.x = 0 ∧ c.fP.y = 0 ∧ 0 < c.fP.z)

theorem of_cluster_projected (fZ0 : ℝ) (c : GEMCluster ℝ) : Projected fZ0 c (SimBackTrack.ofCluster fZ0 c) := by
  have zero : (0.0 : ℝ) = 0 := by norm_num
  refine ⟨fun first => ?_, fun later front => ?_, fun later behind => ?_⟩
  · rw [SimBackTrack.ofCluster, if_neg (not_lt.mpr first)]
    exact ⟨rfl, rfl⟩
  · simp only [SimBackTrack.ofCluster, if_pos later, zero, if_pos (sub_nonpos.mpr front), and_self]
  · have depth : 0 < c.fMCpos.z - fZ0 := sub_pos.mpr behind
    obtain ⟨short, whole⟩ := unit_forward c.fP
    simp only [SimBackTrack.ofCluster, if_pos later, zero, if_neg (not_le.mpr depth), true_and]
    have origin : (c.fMCpos.sub ⟨(c.fMCpos.z - fZ0) * c.fP.unit.x, (c.fMCpos.z - fZ0) * c.fP.unit.y,
        (c.fMCpos.z - fZ0) * c.fP.unit.z⟩).z = fZ0 + (c.fMCpos.z - fZ0) * (1 - c.fP.unit.z) := by
      rw [V3.sub]
      ring
    rw [origin, ← whole]
    refine ⟨le_add_of_nonneg_right (mul_nonneg depth.le (sub_nonneg.mpr short)), fun reached => ?_, fun forward => ?_⟩
    · have none_left := (mul_eq_zero.mp (add_eq_left.mp reached)).resolve_left depth.ne'
      linarith
    · rw [forward, sub_self, mul_zero, add_zero]

-- The back track of a decoded event is of the primary hit nearest to the first
-- plane. It is carried back by the distance along z, so it comes to the plane
-- z0 only when it runs straight along z.
theorem back_track_reaches_plane (su : DecoderSetup ℝ S) (fits : su.manager.fNChamber ≤ 32) (simEvent : SimEvent ℝ)
    (d : DecodedEvent ℝ S) (decoded : doLoadEvent su simEvent = .ok d) :
    d.fBackTracks.length ≤ 1 ∧ (d.fBackTracks = [] ↔ ∀ c ∈ simEvent.fGEMClust, isPrimary c = false) ∧
      ∀ b ∈ d.fBackTracks, ∃ i c, FirstNearest simEvent.fGEMClust i c ∧ Projected su.fgZ0 c b := by
  obtain ⟨stripped, trk, s, _, _, tallied, finished⟩ := load_event_ok su fits simEvent d decoded
  obtain ⟨fMCPoints, fBackTracks, _, back, branch⟩ := finish_event_ok su simEvent trk s _ d finished
  have kept : d.fBackTracks = fBackTracks := by
    split at branch
    · have settled := calo_event_settles su simEvent trk
        (DecodedEvent.tracked { stripped with fMCTracks := simEvent.fMCTracks } s fMCPoints fBackTracks)
      rw [branch] at settled
      obtain ⟨_, _, rfl, _, _⟩ := settled
      rfl
    · cases branch
      rfl
  rw [kept]
  rw [backTracks] at back
  rcases tallied.best with ⟨none_primary, index, _⟩ | ⟨i, c, first, index, _⟩
  · rw [if_neg (by omega)] at back
    cases back
    exact ⟨Nat.zero_le _, iff_of_true rfl none_primary, fun b none => absurd none List.not_mem_nil⟩
  · rw [if_pos (by omega), index, Int.toNat_natCast, first.here, Option.map_some] at back
    cases back
    refine ⟨le_rfl, iff_of_false (List.cons_ne_nil _ _) fun none_primary => ?_, fun b member => ⟨i, c, first, ?_⟩⟩
    · have primary := none_primary c (List.mem_of_getElem? first.here)
      rw [first.primary] at primary
      cases primary
    · rw [List.mem_singleton.mp member]
      obtain ⟨start, front, behind⟩ := of_cluster_projected su.fgZ0 c
      exact ⟨start, front, behind⟩

end

theorem back_track_reaches_plane_two :
    ∃ m : DBManager ℝ, DBManager.loadGeneralInfo ⟨5, 2, [3, 2], 128, 1⟩ = some m ∧
      ∃ d, doLoadEvent (plainSetup m) twoPlaneEvent = .ok d ∧ d.fBackTracks ≠ [] ∧
        ∀ b ∈ d.fBackTracks, ∃ i c, FirstNearest twoPlaneEvent.fGEMClust i c ∧ Projected (plainSetup m).fgZ0 c b := by
  obtain ⟨m, loaded⟩ : ∃ m : DBManager ℝ, DBManager.loadGeneralInfo ⟨5, 2, [3, 2], 128, 1⟩ = some m := ⟨_, rfl⟩
  obtain ⟨d, decoded⟩ := two_plane_event_decodes m loaded
  obtain ⟨_, _, chambers⟩ := DBManager.load_general_info_fields _ m loaded
  obtain ⟨_, none_primary, projected⟩ :=
    back_track_reaches_plane (plainSetup m) (chambers.trans_le (by decide)) twoPlaneEvent d decoded
  refine ⟨m, loaded, d, decoded, fun none_left => ?_, projected⟩
  have background := none_primary.mp none_left (contributor 2 0 6.0 3.0) (List.mem_cons_of_mem _ List.mem_cons_self)
  exact absurd background (by decide)

end Solgem
