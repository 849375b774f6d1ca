import Solgem.StripGeometry
import Solgem.StripTruth

set_option autoImplicit false

namespace Solgem

open GEMPlane

section
variable {F : Type} [Arith F]

-- No value when the assert of GetStrip fails.
def GEMPlane.stripNumtoStrip (pl : GEMPlane F) (strip : Int) : Option F :=
  (pl.getStrip 0.0 0.0).map (fun middle => Arith.ofInt (strip - middle) * pl.fSPitch)

-- The plane of a projection, read with the values of a geometry record.
def GeoInfo.plane (geo : GeoInfo F) (fBox : Box F) (proj : Fin 2) : GEMPlane F :=
  if proj = 0 then readGeometry fBox 0.0 geo.pitch_u else readGeometry fBox 90.0 geo.pitch_v

end

theorem plane_angle_zero (fBox : Box ℝ) (fSPitch : ℝ) :
    (readGeometry fBox 0.0 fSPitch).fCBS = 1 ∧ (readGeometry fBox 0.0 fSPitch).fSBS = 0 := by
  have angle : -((0.0 : ℝ) * (Real.pi / 4.0 / 45.0)) = 0 := by norm_num
  exact ⟨(congrArg Real.cos angle).trans Real.cos_zero, (congrArg Real.sin angle).trans Real.sin_zero⟩

theorem plane_angle_right (fBox : Box ℝ) (fSPitch : ℝ) :
    (readGeometry fBox 90.0 fSPitch).fCBS = 0 ∧ (readGeometry fBox 90.0 fSPitch).fSBS = -1 := by
  have angle : -((90.0 : ℝ) * (Real.pi / 4.0 / 45.0)) = -(Real.pi / 2) := by
    norm_num
    ring
  refine ⟨(congrArg Real.cos angle).trans ?_, (congrArg Real.sin angle).trans ?_⟩
  · rw [Real.cos_neg, Real.cos_pi_div_two]
  · rw [Real.sin_neg, Real.sin_pi_div_two]

section
variable (fBox : Box ℝ) (stripangle fSPitch : ℝ) (pitch : 0 < fSPitch) (wide : 0 < fBox.fDX) (tall : 0 < fBox.fDY)

include pitch wide tall

-- The strips are counted from the one that holds the middle of the box.
theorem middle_strip : ∃ middle : Int, (readGeometry fBox stripangle fSPitch).getStrip 0.0 0.0 = some middle ∧
    (middle : ℝ) ≤ ((readGeometry fBox stripangle fSPitch).fNStrips : ℝ) / 2 ∧
    ((readGeometry fBox stripangle fSPitch).fNStrips : ℝ) / 2 < middle + 1 := by
  have zero : (0.0 : ℝ) = 0 := by norm_num
  have inside : (readGeometry fBox stripangle fSPitch).fBox.contains
      ((readGeometry fBox stripangle fSPitch).stripToPlane (0, 0)).1 ((readGeometry fBox stripangle fSPitch).stripToPlane (0, 0)).2 = true := by
    rw [contains_iff, stripToPlane]
    simp only [mul_zero, add_zero, abs_zero]
    exact ⟨(div_pos wide two_pos).le, (div_pos tall two_pos).le⟩
  have extent := inside_extent _ (read_geometry_rotation fBox stripangle fSPitch) 0 0 inside
  have valid := strip_number_valid fBox stripangle fSPitch pitch 0 extent
  have coordinate := strip_coordinate fBox stripangle fSPitch pitch 0
  have count : (0 : ℝ) ≤ ((readGeometry fBox stripangle fSPitch).fNStrips : ℝ) := by
    exact_mod_cast (by omega : 0 ≤ (readGeometry fBox stripangle fSPitch).fNStrips)
  rw [zero]
  refine ⟨_, (if_pos inside).trans (if_pos valid), ?_⟩
  rw [getStripUnchecked, coordinate, zero_div, zero_add, trunc_of_nonneg _ (by linarith)]
  exact ⟨Int.floor_le _, Int.lt_floor_add_one _⟩

theorem strip_of_number (s : Int) (low : 0 ≤ s) : ∃ x, (readGeometry fBox stripangle fSPitch).stripNumtoStrip s = some x ∧
    (readGeometry fBox stripangle fSPitch).getStripUnchecked x = s := by
  obtain ⟨middle, found, below, above⟩ := middle_strip fBox stripangle fSPitch pitch wide tall
  refine ⟨((s - middle : Int) : ℝ) * fSPitch, ?_, ?_⟩
  · rw [stripNumtoStrip, found]
    rfl
  · rw [getStripUnchecked, strip_coordinate fBox stripangle fSPitch pitch, mul_div_cancel_right₀ _ pitch.ne']
    push_cast
    exact trunc_eq _ s low (by linarith) (by linarith)

-- A position counted from the rim of the box lies within its strip.
theorem strip_of_rim (s : Int) (low : 0 ≤ s) (int : s ≤ 2147483647) :
    let pl := readGeometry fBox stripangle fSPitch
    let x := fSPitch * s - pl.halfWidth
    pl.getStripLowerEdge s ≤ x ∧ x < pl.getStripUpperEdge s ∧ pl.getStripUnchecked x = s := by
  intro pl x
  have sized : 0 ≤ pl.halfWidth := half_width_eq pl ▸
    add_nonneg (mul_nonneg (abs_nonneg _) (div_pos wide two_pos).le) (mul_nonneg (abs_nonneg _) (div_pos tall two_pos).le)
  have cover := read_geometry_cover fBox stripangle fSPitch pitch sized
  have bound := read_geometry_bound fBox stripangle fSPitch pitch wide.le tall.le
  have coordinate := strip_coordinate fBox stripangle fSPitch pitch x
  have place : x / fSPitch = s - pl.halfWidth / fSPitch := by
    simp only [x]
    field_simp
  rw [place] at coordinate
  change 2 * (pl.halfWidth / fSPitch) < (pl.fNStrips : ℝ) at cover
  change (pl.fNStrips : ℝ) < 2 * (pl.halfWidth / fSPitch) + 2 at bound
  change (x - pl.fSBeg) / pl.fSPitch = _ + (pl.fNStrips : ℝ) / 2 at coordinate
  have edge : pl.getStripLowerEdge s = pl.fSBeg + (s : ℝ) * fSPitch := by
    rw [getStripLowerEdge, show ((Lib.toUInt32 s : Nat) : Int) = s from Lib.uint32_exact s low (by omega)]
    rfl
  have upper : pl.getStripUpperEdge s = pl.fSBeg + (s : ℝ) * fSPitch + fSPitch := congrArg (· + fSPitch) edge
  change (x - pl.fSBeg) / fSPitch = _ at coordinate
  refine ⟨?_, ?_, ?_⟩
  · have first : (s : ℝ) ≤ (x - pl.fSBeg) / fSPitch := by linarith
    rw [edge]
    linarith [(le_div_iff₀ pitch).mp first]
  · have last : (x - pl.fSBeg) / fSPitch < s + 1 := by linarith
    rw [upper]
    linarith [(div_lt_iff₀ pitch).mp last]
  · change Arith.trunc ((x - pl.fSBeg) / fSPitch) = s
    rw [coordinate]
    exact trunc_eq _ s low (by linarith) (by linarith)

end

theorem half_width_zero (fBox : Box ℝ) (fSPitch : ℝ) : (readGeometry fBox 0.0 fSPitch).halfWidth = fBox.fDX / 2 := by
  obtain ⟨cosine, sine⟩ := plane_angle_zero fBox fSPitch
  rw [half_width_eq, cosine, sine, abs_one, abs_zero, one_mul, zero_mul, add_zero]
  rfl

theorem half_width_right (fBox : Box ℝ) (fSPitch : ℝ) : (readGeometry fBox 90.0 fSPitch).halfWidth = fBox.fDY / 2 := by
  obtain ⟨cosine, sine⟩ := plane_angle_right fBox fSPitch
  rw [half_width_eq, cosine, sine, abs_zero, abs_neg, abs_one, one_mul, zero_mul, zero_add]
  rfl

-- Both maps from strips to positions lead back to the strip they started at.
theorem strip_positions_agree (m : DBManager ℝ) (iplane imodule : Int) (valid : m.checkIndex iplane imodule = some true)
    (geo : GeoInfo ℝ) (found : m.geoInfo iplane imodule = some geo) (fBox : Box ℝ) (width : fBox.fDX = geo.dx)
    (height : fBox.fDY = geo.dy) (wide : 0 < geo.dx) (tall : 0 < geo.dy) (pitches : 0 < geo.pitch_u ∧ 0 < geo.pitch_v)
    (proj : Fin 2) (int : (geo.plane fBox proj).fNStrips ≤ 2147483647) (s : Int) (low : 0 ≤ s)
    (high : s < (geo.plane fBox proj).fNStrips) :
    (∃ x, (geo.plane fBox proj).stripNumtoStrip s = some x ∧ (geo.plane fBox proj).getStripUnchecked x = s) ∧
      ∃ pos, m.getPosFromModuleStrip (proj.val : Int) iplane imodule s = some pos ∧
        let x := if proj = 0 then pos - geo.xoffset else pos
        (geo.plane fBox proj).getStripLowerEdge s ≤ x ∧ x < (geo.plane fBox proj).getStripUpperEdge s ∧
          (geo.plane fBox proj).getStripUnchecked x = s := by
  have two : (2.0 : ℝ) = 2 := by norm_num
  have small : s ≤ 2147483647 := by omega
  rcases projections proj with rfl | rfl
  · have number := strip_of_number fBox 0.0 geo.pitch_u pitches.1 (width ▸ wide) (height ▸ tall) s low
    have rim := strip_of_rim fBox 0.0 geo.pitch_u pitches.1 (width ▸ wide) (height ▸ tall) s low small
    refine ⟨number, geo.pitch_u * s - geo.dx / 2 + geo.xoffset, ?_, ?_⟩
    · rw [DBManager.getPosFromModuleStrip, valid, Option.bind_some, if_pos rfl, if_pos (by decide), found, Option.map_some, two]
      rfl
    · have place : geo.pitch_u * (s : ℝ) - geo.dx / 2 + geo.xoffset - geo.xoffset =
          geo.pitch_u * s - (readGeometry fBox 0.0 geo.pitch_u).halfWidth := by
        rw [half_width_zero, width]
        ring
      rw [if_pos rfl, place]
      exact rim
  · have number := strip_of_number fBox 90.0 geo.pitch_v pitches.2 (width ▸ wide) (height ▸ tall) s low
    have rim := strip_of_rim fBox 90.0 geo.pitch_v pitches.2 (width ▸ wide) (height ▸ tall) s low small
    refine ⟨number, geo.pitch_v * s - geo.dy / 2, ?_, ?_⟩
    · rw [DBManager.getPosFromModuleStrip, valid, Option.bind_some, if_pos rfl, if_neg (by decide), if_pos (by decide), found,
        Option.map_some, two]
      rfl
    · have place : geo.pitch_v * (s : ℝ) - geo.dy / 2 = geo.pitch_v * s - (readGeometry fBox 90.0 geo.pitch_v).halfWidth := by
        rw [half_width_right, height]
      rw [if_neg (by decide), place]
      exact rim

-- The upper one of the two strips of a module as wide as a strip.
theorem strip_positions_agree_upper_strip :
    let geo : GeoInfo ℝ := ⟨1, 1, 1, 1, 1, 1⟩
    let pl := geo.plane ⟨0, 1, 1, 1, fun _ _ => 0⟩ 0
    (∃ x, pl.stripNumtoStrip 1 = some x ∧ pl.getStripUnchecked x = 1) ∧
      ∃ pos, oneModule.getPosFromModuleStrip 0 0 0 1 = some pos ∧ pl.getStripLowerEdge 1 ≤ pos - 1 ∧
        pos - 1 < pl.getStripUpperEdge 1 ∧ pl.getStripUnchecked (pos - 1) = 1 := by
  intro geo pl
  have half : pl.halfWidth / 1 = 1 / 2 := by
    rw [div_one]
    exact half_width_zero _ _
  have cover : 2 * (pl.halfWidth / 1) < (pl.fNStrips : ℝ) :=
    read_geometry_cover _ 0.0 1 one_pos (by rw [div_one] at half; exact half.ge.trans' (by norm_num))
  have bound : (pl.fNStrips : ℝ) < 2 * (pl.halfWidth / 1) + 2 :=
    read_geometry_bound _ 0.0 1 one_pos zero_le_one zero_le_one
  rw [half] at cover bound
  have several : (1 : Int) < pl.fNStrips := by
    have apart : ((1 : Int) : ℝ) < (pl.fNStrips : ℝ) := by
      push_cast
      linarith
    exact_mod_cast apart
  have few : pl.fNStrips < 3 := by
    have apart : (pl.fNStrips : ℝ) < ((3 : Int) : ℝ) := by
      push_cast
      linarith
    exact_mod_cast apart
  exact strip_positions_agree oneModule 0 0 rfl geo rfl ⟨0, 1, 1, 1, fun _ _ => 0⟩ rfl rfl one_pos one_pos ⟨one_pos, one_pos⟩ 0
    (few.le.trans (by decide)) 1 (by decide) several

end Solgem
