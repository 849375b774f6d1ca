import Solgem.AvaSamples
import Solgem.Bench
import Solgem.StripPositions

set_option autoImplicit false

namespace Solgem

open Lib GEMPlane

-- A size in units of the pitch that the rounding of ReadGeometry takes for the
-- next whole number.
def AllButWhole (u : ℝ) : Prop := (⌊u⌋ : ℝ) + 1 < u + 1.0e-10

theorem corner_strip_clear (u : ℝ) (nonneg : 0 ≤ u) (clear : ¬ AllButWhole u) : cornerStrip u ≤ ⌊u⌋ := by
  have high := (corner_strip_right u nonneg).2
  have apart : (cornerStrip u : ℝ) < ((⌊u⌋ + 1 : Int) : ℝ) := by
    push_cast
    exact high.trans_le (not_lt.mp clear)
  have below : cornerStrip u < ⌊u⌋ + 1 := by exact_mod_cast apart
  omega

-- Without that the strip centres span no more than the plane.
theorem strips_within (u : ℝ) (nonneg : 0 ≤ u) (clear : ¬ AllButWhole u) (smin smax : Int)
    (least : 0 ≤ smin ∨ smin = cornerStrip (-u)) (greatest : smax ≤ 0 ∨ smax = cornerStrip u) :
    ((smax - smin : Int) : ℝ) ≤ 2 * u := by
  have whole := Int.lt_floor_add_one u
  have inside := Int.floor_le u
  have count : 0 ≤ ⌊u⌋ := Int.floor_nonneg.mpr nonneg
  have high : smax ≤ ⌊u⌋ := by
    cases greatest with
    | inl low => omega
    | inr right =>
        rw [right]
        exact corner_strip_clear u nonneg clear
  have low : -u - 1 / 2 ≤ (smin : ℝ) := by
    cases least with
    | inl right =>
        have zero : (0 : ℝ) ≤ smin := by exact_mod_cast right
        linarith
    | inr left =>
        rw [left]
        exact (corner_strip_within (-u) u (by rw [abs_neg, abs_of_nonneg nonneg])).1
  by_cases half : u < ⌊u⌋ + 1 / 2
  · have first : -⌊u⌋ - 1 < smin := by
      have apart : ((-⌊u⌋ - 1 : Int) : ℝ) < (smin : ℝ) := by
        push_cast
        linarith
      exact_mod_cast apart
    have span : ((smax - smin : Int) : ℝ) ≤ ((2 * ⌊u⌋ : Int) : ℝ) := by exact_mod_cast (by omega : smax - smin ≤ 2 * ⌊u⌋)
    push_cast at span ⊢
    linarith
  · have first : -⌊u⌋ - 2 < smin := by
      have apart : ((-⌊u⌋ - 2 : Int) : ℝ) < (smin : ℝ) := by
        push_cast
        linarith
      exact_mod_cast apart
    have span : ((smax - smin : Int) : ℝ) ≤ ((2 * ⌊u⌋ + 1 : Int) : ℝ) := by exact_mod_cast (by omega : smax - smin ≤ 2 * ⌊u⌋ + 1)
    push_cast at span ⊢
    linarith

section
variable {F : Type} [Arith F]

-- A chamber of one x and one y plane, which share its box.
def crossedChamber (fBox : Box F) (pitch : Fin 2 → F) : GEMChamber F where
  fPlanes := fun ip => readGeometry fBox (if ip = 0 then 0.0 else 90.0) (pitch ip)
  fBox := fBox

end

-- The side of the box that the strips of a plane divide.
def Box.side (b : Box ℝ) (ip : Fin 2) : ℝ := if ip = 0 then b.fDX else b.fDY

section
variable (fBox : Box ℝ) (pitch : Fin 2 → ℝ)

theorem crossed_half_width (ip : Fin 2) : ((crossedChamber fBox pitch).fPlanes ip).halfWidth = fBox.side ip / 2 := by
  rcases projections ip with rfl | rfl
  · exact half_width_zero fBox (pitch 0)
  · exact half_width_right fBox (pitch 1)

theorem crossed_corner (ip : Fin 2) (corner : ℝ × ℝ) (member : corner ∈ corners fBox) :
    (((crossedChamber fBox pitch).fPlanes ip).planeToStrip corner).1 = fBox.side ip / 2 ∨
      (((crossedChamber fBox pitch).fPlanes ip).planeToStrip corner).1 = -(fBox.side ip / 2) := by
  have two : (2.0 : ℝ) = 2 := by norm_num
  simp only [corners, two, List.mem_cons, List.not_mem_nil, or_false] at member
  rcases projections ip with rfl | rfl
  · obtain ⟨cosine, sine⟩ := plane_angle_zero fBox (pitch 0)
    have turned : (((crossedChamber fBox pitch).fPlanes 0).planeToStrip corner).1 = corner.1 := by
      change (readGeometry fBox 0.0 (pitch 0)).fCBS * corner.1 - (readGeometry fBox 0.0 (pitch 0)).fSBS * corner.2 = corner.1
      rw [cosine, sine, one_mul, zero_mul, sub_zero]
    rw [turned]
    rcases member with rfl | rfl | rfl | rfl
    · exact .inl rfl
    · exact .inl rfl
    · exact .inr rfl
    · exact .inr rfl
  · obtain ⟨cosine, sine⟩ := plane_angle_right fBox (pitch 1)
    have turned : (((crossedChamber fBox pitch).fPlanes 1).planeToStrip corner).1 = corner.2 := by
      change (readGeometry fBox 90.0 (pitch 1)).fCBS * corner.1 - (readGeometry fBox 90.0 (pitch 1)).fSBS * corner.2 = corner.2
      rw [cosine, sine, zero_mul, neg_mul, one_mul, zero_sub, neg_neg]
    rw [turned]
    rcases member with rfl | rfl | rfl | rfl
    · exact .inl rfl
    · exact .inr rfl
    · exact .inl rfl
    · exact .inr rfl

theorem crossed_rim (ip : Fin 2) (pitches : 0 < pitch ip) (sized : 0 ≤ fBox.side ip) (clear : ¬ AllButWhole (fBox.side ip / 2 / pitch ip)) :
    ((((crossedChamber fBox pitch).fPlanes ip).fNStrips - 1 : Int) : ℝ) * pitch ip ≤ fBox.side ip := by
  obtain ⟨smin, smax, count, _, least, greatest⟩ := read_geometry_count fBox (if ip = 0 then 0.0 else 90.0) (pitch ip)
  have nonneg : 0 ≤ fBox.side ip / 2 / pitch ip := div_nonneg (div_nonneg sized zero_le_two) pitches.le
  have numbers : ∀ corner ∈ corners fBox,
      cornerStrip ((((crossedChamber fBox pitch).fPlanes ip).planeToStrip corner).1 / pitch ip) =
          cornerStrip (fBox.side ip / 2 / pitch ip) ∨
        cornerStrip ((((crossedChamber fBox pitch).fPlanes ip).planeToStrip corner).1 / pitch ip) =
          cornerStrip (-(fBox.side ip / 2 / pitch ip)) := by
    intro corner member
    cases crossed_corner fBox pitch ip corner member with
    | inl right => exact .inl (by rw [right])
    | inr left => exact .inr (by rw [left, neg_div])
  have low : 0 ≤ smin ∨ smin = cornerStrip (-(fBox.side ip / 2 / pitch ip)) := by
    rcases least with start | ⟨corner, member, same⟩
    · exact .inl (start ▸ trunc_nonneg (1.0e9 : ℝ) (by norm_num))
    · cases numbers corner member with
      | inl right => exact .inl ((corner_strip_nonneg _ nonneg).trans_eq (same.trans right).symm)
      | inr left => exact .inr (same.trans left)
  have high : smax ≤ 0 ∨ smax = cornerStrip (fBox.side ip / 2 / pitch ip) := by
    rcases greatest with start | ⟨corner, member, same⟩
    · exact .inl (start.trans (trunc_eq (1.0e-9 : ℝ) 0 (le_refl 0) (by norm_num) (by norm_num))).le
    · cases numbers corner member with
      | inl right => exact .inr (same.trans right)
      | inr left => exact .inl ((same.trans left).trans_le (corner_strip_nonpos _ (neg_nonpos.mpr nonneg)))
  have span := strips_within _ nonneg clear smin smax low high
  have strips : ((crossedChamber fBox pitch).fPlanes ip).fNStrips - 1 = smax - smin := by
    change (readGeometry fBox (if ip = 0 then 0.0 else 90.0) (pitch ip)).fNStrips - 1 = _
    omega
  rw [strips]
  calc ((smax - smin : Int) : ℝ) * pitch ip ≤ 2 * (fBox.side ip / 2 / pitch ip) * pitch ip := mul_le_mul_of_nonneg_right span pitches.le
    _ = fBox.side ip := by field_simp

theorem clip_limits (stripangle fSPitch : ℝ) (strips : 0 < (readGeometry fBox stripangle fSPitch).fNStrips)
    (few : (readGeometry fBox stripangle fSPitch).fNStrips ≤ 32767) :
    let pl := readGeometry fBox stripangle fSPitch
    pl.getStripLowerEdge 0 + pl.fSPitch / 2 = -((((pl.fNStrips - 1 : Int) : ℝ) * fSPitch) / 2) ∧
      pl.getStripUpperEdge (pl.fNStrips - 1) - pl.fSPitch / 2 = (((pl.fNStrips - 1 : Int) : ℝ) * fSPitch) / 2 := by
  intro pl
  have begin : pl.fSBeg = ((-pl.fNStrips : Int) : ℝ) * fSPitch * 0.5 := rfl
  have same : pl.fSPitch = fSPitch := rfl
  have first : pl.getStripLowerEdge 0 = pl.fSBeg + ((0 : Int) : ℝ) * fSPitch := by
    rw [getStripLowerEdge, show ((toUInt32 0 : Nat) : Int) = 0 from rfl]
    rfl
  have last : pl.getStripUpperEdge (pl.fNStrips - 1) = pl.fSBeg + ((pl.fNStrips - 1 : Int) : ℝ) * fSPitch + fSPitch := by
    rw [getStripUpperEdge, getStripLowerEdge, show ((toUInt32 (pl.fNStrips - 1) : Nat) : Int) = pl.fNStrips - 1 from
      uint32_exact _ (Int.sub_nonneg_of_le strips) (by change pl.fNStrips ≤ 32767 at few; omega)]
    rfl
  rw [first, last, begin, same]
  push_cast
  norm_num
  exact ⟨by ring, by ring⟩

-- Turning a point of the plane frame into the strip frame can be undone.
theorem strip_to_plane_back (stripangle fSPitch x y : ℝ) :
    let pl := readGeometry fBox stripangle fSPitch
    pl.stripToPlane ((pl.planeToStrip (x, y)).1, (pl.planeToStrip (x, y)).2) = (x, y) := by
  intro pl
  have unit : pl.fCBS * pl.fCBS + pl.fSBS * pl.fSBS = 1 := read_geometry_rotation fBox stripangle fSPitch
  simp only [planeToStrip, stripToPlane]
  refine Prod.ext ?_ ?_
  · linear_combination x * unit
  · linear_combination y * unit

theorem planed_strip (stripangle fSPitch : ℝ) (pitched : 0 < fSPitch) (x y : ℝ) (column : |x| ≤ fBox.fDX / 2) (row : |y| ≤ fBox.fDY / 2) :
    let pl := readGeometry fBox stripangle fSPitch
    ∃ s, pl.getStrip (pl.planeToStrip (x, y)).1 (pl.planeToStrip (x, y)).2 = some s ∧ 0 ≤ s ∧ s < pl.fNStrips := by
  intro pl
  have unit : pl.fCBS * pl.fCBS + pl.fSBS * pl.fSBS = 1 := read_geometry_rotation fBox stripangle fSPitch
  have back := strip_to_plane_back fBox stripangle fSPitch x y
  have inside : pl.fBox.contains (pl.stripToPlane ((pl.planeToStrip (x, y)).1, (pl.planeToStrip (x, y)).2)).1
      (pl.stripToPlane ((pl.planeToStrip (x, y)).1, (pl.planeToStrip (x, y)).2)).2 = true := by
    rw [back, contains_iff]
    exact ⟨column, row⟩
  have valid := strip_number_valid fBox stripangle fSPitch pitched _ (inside_extent pl unit _ _ inside)
  exact ⟨_, (if_pos inside).trans (if_pos valid), valid⟩

-- The limits activeRegion clips a coordinate at, in millimetres.
noncomputable def clipLimit (ip : Fin 2) : ℝ :=
  ((((crossedChamber fBox pitch).fPlanes ip).fNStrips - 1 : Int) : ℝ) * pitch ip / 2.0 * 1000.0

theorem clip_limit_eq (ip : Fin 2) :
    clipLimit fBox pitch ip = ((((crossedChamber fBox pitch).fPlanes ip).fNStrips - 1 : Int) : ℝ) * pitch ip / 2 * 1000 := by
  rw [clipLimit, show (2.0 : ℝ) = 2 by norm_num, show (1000.0 : ℝ) = 1000 by norm_num]

theorem clip_low (limit x : ℝ) (nonneg : 0 ≤ limit) (below : x ≤ limit) : |if x < -limit then -limit else x| ≤ limit := by
  by_cases outside : x < -limit
  · rw [if_pos outside, abs_neg, abs_of_nonneg nonneg]
  · rw [if_neg outside]
    exact abs_le.mpr ⟨not_lt.mp outside, below⟩

theorem clip_high (limit x : ℝ) (nonneg : 0 ≤ limit) (above : -limit ≤ x) : |if limit < x then limit else x| ≤ limit := by
  by_cases outside : limit < x
  · rw [if_pos outside, abs_of_nonneg nonneg]
  · rw [if_neg outside]
    exact abs_le.mpr ⟨above, not_lt.mp outside⟩

theorem active_region_clipped (strips : ∀ ip, 0 < ((crossedChamber fBox pitch).fPlanes ip).fNStrips)
    (few : ∀ ip, ((crossedChamber fBox pitch).fPlanes ip).fNStrips ≤ 32767) (area : Region ℝ) :
    activeRegion (crossedChamber fBox pitch) area =
      if area.x1 < -clipLimit fBox pitch 0 ∨ clipLimit fBox pitch 0 < area.x0 ∨ area.y1 < -clipLimit fBox pitch 1 ∨
        clipLimit fBox pitch 1 < area.y0 then none
      else
        some
          { x0 := if area.x0 < -clipLimit fBox pitch 0 then -clipLimit fBox pitch 0 else area.x0
            y0 := if area.y0 < -clipLimit fBox pitch 1 then -clipLimit fBox pitch 1 else area.y0
            x1 := if clipLimit fBox pitch 0 < area.x1 then clipLimit fBox pitch 0 else area.x1
            y1 := if clipLimit fBox pitch 1 < area.y1 then clipLimit fBox pitch 1 else area.y1 } := by
  have two : (2.0 : ℝ) = 2 := by norm_num
  have thousand : (1000.0 : ℝ) = 1000 := by norm_num
  have limits : ∀ ip, (((crossedChamber fBox pitch).fPlanes ip).getStripLowerEdge 0 +
        ((crossedChamber fBox pitch).fPlanes ip).fSPitch / 2) * 1000 = -clipLimit fBox pitch ip ∧
      (((crossedChamber fBox pitch).fPlanes ip).getStripUpperEdge (((crossedChamber fBox pitch).fPlanes ip).fNStrips - 1) -
        ((crossedChamber fBox pitch).fPlanes ip).fSPitch / 2) * 1000 = clipLimit fBox pitch ip := by
    intro ip
    obtain ⟨low, high⟩ := clip_limits fBox (if ip = 0 then 0.0 else 90.0) (pitch ip) (strips ip) (few ip)
    rw [clip_limit_eq]
    exact ⟨(congrArg (· * 1000) low).trans (neg_mul _ _), congrArg (· * 1000) high⟩
  simp only [activeRegion, two, thousand, (limits 0).1, (limits 0).2, (limits 1).1, (limits 1).2]

theorem active_region_within (strips : ∀ ip, 0 < ((crossedChamber fBox pitch).fPlanes ip).fNStrips)
    (few : ∀ ip, ((crossedChamber fBox pitch).fPlanes ip).fNStrips ≤ 32767) (pitches : ∀ ip, 0 < pitch ip) (area r : Region ℝ)
    (accepted : activeRegion (crossedChamber fBox pitch) area = some r) :
    (|r.x0| ≤ clipLimit fBox pitch 0 ∧ |r.x1| ≤ clipLimit fBox pitch 0) ∧
      |r.y0| ≤ clipLimit fBox pitch 1 ∧ |r.y1| ≤ clipLimit fBox pitch 1 := by
  have nonneg : ∀ ip, 0 ≤ clipLimit fBox pitch ip := by
    intro ip
    have count : (0 : ℝ) ≤ ((((crossedChamber fBox pitch).fPlanes ip).fNStrips - 1 : Int) : ℝ) := by
      exact_mod_cast Int.sub_nonneg_of_le (strips ip)
    rw [clip_limit_eq]
    exact mul_nonneg (div_nonneg (mul_nonneg count (pitches ip).le) zero_le_two) (by norm_num)
  rw [active_region_clipped fBox pitch strips few] at accepted
  by_cases outside : area.x1 < -clipLimit fBox pitch 0 ∨ clipLimit fBox pitch 0 < area.x0 ∨
      area.y1 < -clipLimit fBox pitch 1 ∨ clipLimit fBox pitch 1 < area.y0
  · rw [if_pos outside] at accepted
    cases accepted
  · rw [if_neg outside] at accepted
    simp only [not_or, not_lt] at outside
    obtain ⟨right, left, upper, lower⟩ := outside
    rw [← Option.some.inj accepted]
    exact ⟨⟨clip_low _ _ (nonneg 0) left, clip_high _ _ (nonneg 0) right⟩,
      clip_low _ _ (nonneg 1) lower, clip_high _ _ (nonneg 1) upper⟩

theorem crossed_strips (ip : Fin 2) (pitched : 0 < pitch ip) (sized : 0 ≤ fBox.side ip) :
    0 < ((crossedChamber fBox pitch).fPlanes ip).fNStrips := by
  have half := crossed_half_width fBox pitch ip
  have nonneg : 0 ≤ ((crossedChamber fBox pitch).fPlanes ip).halfWidth := half ▸ div_nonneg sized zero_le_two
  have cover := read_geometry_cover fBox (if ip = 0 then 0.0 else 90.0) (pitch ip) pitched nonneg
  have span : 0 ≤ 2 * (((crossedChamber fBox pitch).fPlanes ip).halfWidth / pitch ip) :=
    mul_nonneg zero_le_two (div_nonneg nonneg pitched.le)
  exact_mod_cast span.trans_lt cover

theorem clip_inside (ip : Fin 2) (pitched : 0 < pitch ip) (sized : 0 ≤ fBox.side ip) (clear : ¬ AllButWhole (fBox.side ip / 2 / pitch ip))
    (x : ℝ) (clipped : |x| ≤ clipLimit fBox pitch ip) : |x / 1000| ≤ fBox.side ip / 2 := by
  have rim := crossed_rim fBox pitch ip pitched sized clear
  rw [clip_limit_eq] at clipped
  rw [abs_div, abs_of_pos (by norm_num : (0 : ℝ) < 1000), div_le_iff₀ (by norm_num)]
  linarith

-- Both corners of a clipped region lie on strips of the plane.
def CornersFound (pl : GEMPlane ℝ) (r : Region ℝ) : Prop :=
  ∃ s0 s1, pl.getStrip ((toStripFrame pl r.x0 r.y0).1 * 1e-3) ((toStripFrame pl r.x0 r.y0).2 * 1e-3) = some s0 ∧
    pl.getStrip ((toStripFrame pl r.x1 r.y1).1 * 1e-3) ((toStripFrame pl r.x1 r.y1).2 * 1e-3) = some s1 ∧
    (0 ≤ s0 ∧ s0 < pl.fNStrips) ∧ 0 ≤ s1 ∧ s1 < pl.fNStrips

theorem frame_metres (pl : GEMPlane ℝ) (x y : ℝ) :
    (toStripFrame pl x y).1 * 1e-3 = (pl.planeToStrip (x / 1000, y / 1000)).1 ∧
      (toStripFrame pl x y).2 * 1e-3 = (pl.planeToStrip (x / 1000, y / 1000)).2 := by
  simp only [toStripFrame, planeToStrip]
  norm_num
  exact ⟨by ring, by ring⟩

theorem frame_strip (pl : GEMPlane ℝ) (x y : ℝ) :
    pl.getStrip ((toStripFrame pl x y).1 * 1e-3) ((toStripFrame pl x y).2 * 1e-3) =
      pl.getStrip (pl.planeToStrip (x / 1000, y / 1000)).1 (pl.planeToStrip (x / 1000, y / 1000)).2 := by
  obtain ⟨across, along⟩ := frame_metres pl x y
  rw [across, along]

theorem corners_found (pitches : ∀ ip, 0 < pitch ip) (r : Region ℝ) (columns : |r.x0 / 1000| ≤ fBox.fDX / 2 ∧ |r.x1 / 1000| ≤ fBox.fDX / 2)
    (rows : |r.y0 / 1000| ≤ fBox.fDY / 2 ∧ |r.y1 / 1000| ≤ fBox.fDY / 2) (ip : Fin 2) :
    CornersFound ((crossedChamber fBox pitch).fPlanes ip) r := by
  obtain ⟨s0, found0, valid0⟩ := planed_strip fBox (if ip = 0 then 0.0 else 90.0) (pitch ip) (pitches ip) _ _ columns.1 rows.1
  obtain ⟨s1, found1, valid1⟩ := planed_strip fBox (if ip = 0 then 0.0 else 90.0) (pitch ip) (pitches ip) _ _ columns.2 rows.2
  exact ⟨s0, s1, (frame_strip _ r.x0 r.y0).trans found0, (frame_strip _ r.x1 r.y1).trans found1, valid0, valid1⟩

end

theorem strip_range_found (pl : GEMPlane ℝ) (r : Region ℝ) (found : CornersFound pl r) : ∃ iL iU, stripRange pl r = some (some (iL, iU)) := by
  obtain ⟨s0, s1, first, second, valid0, valid1⟩ := found
  rw [stripRange, first, second]
  simp only [Option.bind_eq_bind, Option.bind_some]
  rw [if_neg (fun both => absurd both.1 (not_lt.mpr valid0.1)), if_neg (not_lt.mpr valid0.1), if_neg (not_lt.mpr valid1.1)]
  by_cases swapped : s1 < s0
  · exact ⟨s1, s0, congrArg (fun pair => some (some pair)) (if_pos swapped)⟩
  · exact ⟨s0, s1, congrArg (fun pair => some (some pair)) (if_neg swapped)⟩

theorem ava_plane_found (par : Params ℝ) (ion : IonState ℝ) (pl : GEMPlane ℝ) (r : Region ℝ) (t0 : ℝ) (found : CornersFound pl r) :
    avaPlane par ion pl r t0 ≠ .ok none := by
  obtain ⟨iL, iU, range⟩ := strip_range_found pl r found
  rw [ava_plane_region par ion pl r t0 iL iU range]
  split
  · exact fun same => by cases same
  · exact fun same => by cases same

theorem ava_model_found (par : Params ℝ) (ion : IonState ℝ) (ch : GEMChamber ℝ) (xi xo : V3 ℝ) (t0 : ℝ) (r : Region ℝ)
    (accepted : activeRegion ch (diffusionArea par ion xi xo) = some r) (found : ∀ ip, CornersFound (ch.fPlanes ip) r) :
    avaModel par ion ch xi xo t0 ≠ .ok none := by
  have first := ava_plane_found par ion (ch.fPlanes 0) r t0 (found 0)
  have second := ava_plane_found par ion (ch.fPlanes 1) r t0 (found 1)
  rw [avaModel, accepted]
  simp only [bind, Except.bind]
  cases u : avaPlane par ion (ch.fPlanes 0) r t0 with
  | error fault => exact fun same => by cases same
  | ok u' =>
      cases u' with
      | none => exact absurd u first
      | some u' =>
          cases v : avaPlane par ion (ch.fPlanes 1) r t0 with
          | error fault => exact fun same => by cases same
          | ok v' =>
              cases v' with
              | none => exact absurd v second
              | some v' => exact fun same => by cases same

-- Whatever hit AvaModel returns is well formed; and it returns one for every
-- region it accepts, unless rounding gave a plane a strip its box ends before.
theorem avalanche_hits_formed (par : Params ℝ) (ion : IonState ℝ) (fBox : Box ℝ) (sized : ∀ ip, 0 < fBox.side ip) (pitch : Fin 2 → ℝ)
    (pitches : ∀ ip, 0 < pitch ip) (few : ∀ ip, ((crossedChamber fBox pitch).fPlanes ip).fNStrips ≤ 32767) (xi xo : V3 ℝ) (t0 : ℝ)
    (r : Region ℝ) (accepted : activeRegion (crossedChamber fBox pitch) (diffusionArea par ion xi xo) = some r) :
    ((∀ ip, ¬ AllButWhole (fBox.side ip / 2 / pitch ip)) →
      (∀ ip, CornersFound ((crossedChamber fBox pitch).fPlanes ip) r) ∧ avaModel par ion (crossedChamber fBox pitch) xi xo t0 ≠ .ok none) ∧
    ∀ vv, avaModel par ion (crossedChamber fBox pitch) xi xo t0 = .ok (some vv) →
      ∀ ip, BinsFit par ((crossedChamber fBox pitch).fPlanes ip) r →
        ∃ iL iU, stripRange ((crossedChamber fBox pitch).fPlanes ip) r = some (some (iL, iU)) ∧ 0 ≤ iL ∧ iL ≤ iU ∧
          iU < ((crossedChamber fBox pitch).fPlanes ip).fNStrips ∧ (vv ip).WellFormed iL iU par.fEleSamplingPoints := by
  refine ⟨fun clear => ?_, fun vv built ip fit => ?_⟩
  · have strips := fun ip => crossed_strips fBox pitch ip (pitches ip) (sized ip).le
    obtain ⟨columns, rows⟩ := active_region_within fBox pitch strips few pitches _ r accepted
    have inside := fun ip => clip_inside fBox pitch ip (pitches ip) (sized ip).le (clear ip)
    have found := corners_found fBox pitch pitches r ⟨inside 0 r.x0 columns.1, inside 0 r.x1 columns.2⟩
      ⟨inside 1 r.y0 rows.1, inside 1 r.y1 rows.2⟩
    exact ⟨found, ava_model_found par ion _ xi xo t0 r accepted found⟩
  · obtain ⟨r', region, planes⟩ := ava_model_some par ion _ xi xo t0 vv built
    have same : r' = r := Option.some.inj (region.symm.trans accepted)
    rw [same] at planes
    exact ava_plane_formed par ion _ r t0 (vv ip) (few ip) fit (planes ip)

theorem corner_strip_reached (u : ℝ) (nonneg : 0 ≤ u) (reached : AllButWhole u) : ⌊u⌋ + 1 ≤ cornerStrip u := by
  have near : (⌊u⌋ : ℝ) + 1 < u + 1.0e-10 := reached
  have rounded : roundAway u = ⌊u⌋ + 1 := by
    have far : ¬ Arith.abs (u - Arith.ofInt (Arith.trunc u)) < 0.5 := by
      rw [trunc_of_nonneg u nonneg]
      change ¬ |u - ((⌊u⌋ : Int) : ℝ)| < 0.5
      rw [abs_of_nonneg (sub_nonneg.mpr (Int.floor_le u)), show (0.5 : ℝ) = 1 / 2 by norm_num]
      norm_num at near
      linarith
    rw [roundAway, if_neg far, if_neg (show ¬ u < 0.0 by norm_num; exact nonneg), trunc_of_nonneg u nonneg]
  have close : Arith.ofInt (roundAway u) - u < 1.0e-10 := by
    rw [rounded]
    change ((⌊u⌋ + 1 : Int) : ℝ) - u < 1.0e-10
    push_cast
    linarith
  rw [cornerStrip, if_pos close, rounded]

section
variable (fBox : Box ℝ) (pitch : Fin 2 → ℝ)

-- The strip that rounding adds puts the clipping limits outside the box.
theorem crossed_overhang (ip : Fin 2) (pitched : 0 < pitch ip) (sized : 0 < fBox.side ip) (reached : AllButWhole (fBox.side ip / 2 / pitch ip)) :
    fBox.side ip < ((((crossedChamber fBox pitch).fPlanes ip).fNStrips - 1 : Int) : ℝ) * pitch ip := by
  obtain ⟨smin, smax, count, within, _⟩ := read_geometry_count fBox (if ip = 0 then 0.0 else 90.0) (pitch ip)
  obtain ⟨⟨right, rightCorner, rightEnd⟩, left, leftCorner, leftEnd⟩ := corner_extent ((crossedChamber fBox pitch).fPlanes ip)
  have half := crossed_half_width fBox pitch ip
  have positive : 0 < fBox.side ip / 2 / pitch ip := div_pos (half_pos sized) pitched
  have high : cornerStrip (fBox.side ip / 2 / pitch ip) ≤ smax := by
    have bound := (within right rightCorner).2
    change cornerStrip ((((crossedChamber fBox pitch).fPlanes ip).planeToStrip right).1 / pitch ip) ≤ smax at bound
    rwa [rightEnd, half] at bound
  have low : smin ≤ cornerStrip (-(fBox.side ip / 2 / pitch ip)) := by
    have bound := (within left leftCorner).1
    change smin ≤ cornerStrip ((((crossedChamber fBox pitch).fPlanes ip).planeToStrip left).1 / pitch ip) at bound
    rwa [leftEnd, half, neg_div] at bound
  have strips : ((crossedChamber fBox pitch).fPlanes ip).fNStrips - 1 = smax - smin := by
    change (readGeometry fBox (if ip = 0 then 0.0 else 90.0) (pitch ip)).fNStrips - 1 = _
    omega
  have side : fBox.side ip = 2 * (fBox.side ip / 2 / pitch ip) * pitch ip := by field_simp
  generalize fBox.side ip / 2 / pitch ip = u at *
  have near : (⌊u⌋ : ℝ) + 1 < u + 1.0e-10 := reached
  have upper := corner_strip_reached u positive.le reached
  have lower : cornerStrip (-u) < -⌊u⌋ := by
    have apart : (cornerStrip (-u) : ℝ) < ((-⌊u⌋ : Int) : ℝ) := by
      push_cast
      norm_num at near
      linarith [(corner_strip_left (-u) (neg_neg_iff_pos.mpr positive)).2]
    exact_mod_cast apart
  have span : ((2 * ⌊u⌋ + 2 : Int) : ℝ) ≤ ((smax - smin : Int) : ℝ) := by exact_mod_cast (by omega : 2 * ⌊u⌋ + 2 ≤ smax - smin)
  rw [strips, side]
  refine mul_lt_mul_of_pos_right (lt_of_lt_of_le ?_ span) pitched
  push_cast
  linarith [Int.lt_floor_add_one u]

theorem strip_outside (stripangle fSPitch x y : ℝ) (outside : fBox.fDX / 2 < |x|) :
    let pl := readGeometry fBox stripangle fSPitch
    pl.getStrip (pl.planeToStrip (x, y)).1 (pl.planeToStrip (x, y)).2 = some (-1) := by
  intro pl
  have back := strip_to_plane_back fBox stripangle fSPitch x y
  have beyond : ¬ pl.fBox.contains (pl.stripToPlane ((pl.planeToStrip (x, y)).1, (pl.planeToStrip (x, y)).2)).1
      (pl.stripToPlane ((pl.planeToStrip (x, y)).1, (pl.planeToStrip (x, y)).2)).2 = true := by
    rw [back, contains_iff]
    exact fun inside => absurd inside.1 (not_le.mpr outside)
  exact if_neg beyond

theorem strip_range_lost (ip : Fin 2) (r : Region ℝ) (first : fBox.fDX / 2 < |r.x0 / 1000|) (second : fBox.fDX / 2 < |r.x1 / 1000|) :
    stripRange ((crossedChamber fBox pitch).fPlanes ip) r = some none := by
  have low := strip_outside fBox (if ip = 0 then 0.0 else 90.0) (pitch ip) (r.x0 / 1000) (r.y0 / 1000) first
  have high := strip_outside fBox (if ip = 0 then 0.0 else 90.0) (pitch ip) (r.x1 / 1000) (r.y1 / 1000) second
  have found0 := (frame_strip ((crossedChamber fBox pitch).fPlanes ip) r.x0 r.y0).trans low
  have found1 := (frame_strip ((crossedChamber fBox pitch).fPlanes ip) r.x1 r.y1).trans high
  rw [stripRange, found0, found1]
  rfl

theorem ava_model_lost (par : Params ℝ) (ion : IonState ℝ) (ch : GEMChamber ℝ) (xi xo : V3 ℝ) (t0 : ℝ) (r : Region ℝ)
    (accepted : activeRegion ch (diffusionArea par ion xi xo) = some r) (lost : stripRange (ch.fPlanes 0) r = some none) :
    avaModel par ion ch xi xo t0 = .ok none := by
  have first : avaPlane par ion (ch.fPlanes 0) r t0 = .ok none := by
    rw [avaPlane, lost]
    rfl
  rw [avaModel, accepted]
  simp only [bind, Except.bind]
  rw [first]
  rfl

theorem whole_plane_lost (par : Params ℝ) (ion : IonState ℝ) (sized : ∀ ip, 0 < fBox.side ip) (pitches : ∀ ip, 0 < pitch ip)
    (few : ∀ ip, ((crossedChamber fBox pitch).fPlanes ip).fNStrips ≤ 32767) (reached : AllButWhole (fBox.side 0 / 2 / pitch 0))
    (xi xo : V3 ℝ) (t0 : ℝ)
    (across : (diffusionArea par ion xi xo).x0 < -clipLimit fBox pitch 0 ∧ clipLimit fBox pitch 0 < (diffusionArea par ion xi xo).x1)
    (level : (diffusionArea par ion xi xo).y0 ≤ clipLimit fBox pitch 1 ∧ -clipLimit fBox pitch 1 ≤ (diffusionArea par ion xi xo).y1) :
    (∃ r, activeRegion (crossedChamber fBox pitch) (diffusionArea par ion xi xo) = some r ∧
      ∀ ip, stripRange ((crossedChamber fBox pitch).fPlanes ip) r = some none) ∧
    avaModel par ion (crossedChamber fBox pitch) xi xo t0 = .ok none := by
  have strips := fun ip => crossed_strips fBox pitch ip (pitches ip) (sized ip).le
  have overhang := crossed_overhang fBox pitch 0 (pitches 0) (sized 0) reached
  have limit : fBox.fDX / 2 < clipLimit fBox pitch 0 / 1000 := by
    change fBox.fDX < _ at overhang
    rw [clip_limit_eq]
    linarith
  have positive : 0 < clipLimit fBox pitch 0 := by
    have some_width : 0 < fBox.fDX := sized 0
    linarith
  have clipped := active_region_clipped fBox pitch strips few (diffusionArea par ion xi xo)
  rw [if_neg (by rintro (right | left | upper | lower) <;> linarith), if_pos across.1, if_pos across.2] at clipped
  obtain ⟨r, accepted, left, right⟩ : ∃ r, activeRegion (crossedChamber fBox pitch) (diffusionArea par ion xi xo) = some r ∧
      r.x0 = -clipLimit fBox pitch 0 ∧ r.x1 = clipLimit fBox pitch 0 := ⟨_, clipped, rfl, rfl⟩
  have lost : ∀ ip, stripRange ((crossedChamber fBox pitch).fPlanes ip) r = some none := by
    intro ip
    refine strip_range_lost fBox pitch ip r ?_ ?_
    · rw [left, neg_div, abs_neg, abs_of_pos (div_pos positive (by norm_num))]
      exact limit
    · rw [right, abs_of_pos (div_pos positive (by norm_num))]
      exact limit
  exact ⟨⟨r, accepted, lost⟩, ava_model_lost par ion _ xi xo t0 r accepted (lost 0)⟩

theorem crossed_count (ip : Fin 2) (sized : ∀ ip, 0 < fBox.side ip) (pitched : 0 < pitch ip) :
    2 * (fBox.side ip / 2 / pitch ip) < (((crossedChamber fBox pitch).fPlanes ip).fNStrips : ℝ) ∧
      (((crossedChamber fBox pitch).fPlanes ip).fNStrips : ℝ) < 2 * (fBox.side ip / 2 / pitch ip) + 2 := by
  have half := crossed_half_width fBox pitch ip
  have nonneg : 0 ≤ ((crossedChamber fBox pitch).fPlanes ip).halfWidth := half ▸ (half_pos (sized ip)).le
  have cover := read_geometry_cover fBox (if ip = 0 then 0.0 else 90.0) (pitch ip) pitched nonneg
  have bound := read_geometry_bound fBox (if ip = 0 then 0.0 else 90.0) (pitch ip) pitched (sized 0).le (sized 1).le
  rw [← half]
  exact ⟨cover, bound⟩

-- A side of a whole number of pitches has one strip more, and the clipping
-- limits are the edges of the box.
theorem crossed_count_whole (ip : Fin 2) (sized : ∀ ip, 0 < fBox.side ip) (pitched : 0 < pitch ip) (m : Int)
    (whole : fBox.side ip = (m : ℝ) * pitch ip) : ((crossedChamber fBox pitch).fPlanes ip).fNStrips = m + 1 := by
  obtain ⟨cover, bound⟩ := crossed_count fBox pitch ip sized pitched
  have pitches : 2 * (fBox.side ip / 2 / pitch ip) = (m : ℝ) := by
    rw [whole]
    field_simp
  rw [pitches] at cover bound
  have above : m < ((crossedChamber fBox pitch).fPlanes ip).fNStrips := by exact_mod_cast cover
  have below : ((crossedChamber fBox pitch).fPlanes ip).fNStrips < m + 2 := by exact_mod_cast bound
  omega

theorem clip_limit_whole (ip : Fin 2) (sized : ∀ ip, 0 < fBox.side ip) (pitched : 0 < pitch ip) (m : Int)
    (whole : fBox.side ip = (m : ℝ) * pitch ip) : clipLimit fBox pitch ip = fBox.side ip / 2 * 1000 := by
  rw [clip_limit_eq, crossed_count_whole fBox pitch ip sized pitched m whole, add_sub_cancel_right, whole]

end

noncomputable def squareBox (side : ℝ) : Box ℝ := ⟨0, 0, side, side, fun i j => if i = j then 1 else 0⟩

theorem square_side (side : ℝ) (ip : Fin 2) : (squareBox side).side ip = side := ite_self _

theorem straight_area (steps : Nat) (reach z : ℝ) (positive : 0 < reach) :
    diffusionArea (bench 3 steps).par unwritten ⟨-reach, -reach, 0⟩ ⟨reach, reach, z⟩ = ⟨-reach, -reach, reach, reach⟩ := by
  have band : (bench 3 steps).par.fAvalancheFiducialBand * unwritten.fRSMax = 0 := zero_mul _
  have forward : -reach < reach := by linarith
  simp only [diffusionArea, band, if_pos forward, sub_zero, add_zero]

-- Two strips of one metre in a square of one metre, and a segment inside it.
theorem two_strips (ip : Fin 2) : ((crossedChamber (squareBox 1) (fun _ => 1)).fPlanes ip).fNStrips = 2 := by
  have sized : ∀ ip, 0 < (squareBox 1).side ip := fun ip => (square_side 1 ip).symm ▸ one_pos
  have whole : (squareBox 1).side ip = ((1 : Int) : ℝ) * 1 := by
    rw [square_side]
    norm_num
  exact crossed_count_whole (squareBox 1) (fun _ => 1) ip sized one_pos 1 whole

theorem short_segment_accepted :
    activeRegion (crossedChamber (squareBox 1) (fun _ => 1)) (diffusionArea (bench 3 1).par unwritten ⟨-100, -100, 0⟩ ⟨100, 100, 3⟩) =
      some ⟨-100, -100, 100, 100⟩ := by
  have limit : ∀ ip, clipLimit (squareBox 1) (fun _ => 1) ip = 500 := by
    intro ip
    rw [clip_limit_eq, two_strips]
    norm_num
  rw [straight_area 1 100 3 (by norm_num), active_region_clipped (squareBox 1) (fun _ => 1) (fun ip => by rw [two_strips]; decide)
    (fun ip => by rw [two_strips]; decide), limit 0, limit 1]
  norm_num

theorem avalanche_hits_formed_short_segment :
    let ch := crossedChamber (squareBox 1) (fun _ => 1)
    (∀ ip, CornersFound (ch.fPlanes ip) ⟨-100, -100, 100, 100⟩) ∧
      avaModel (bench 3 1).par unwritten ch ⟨-100, -100, 0⟩ ⟨100, 100, 3⟩ 0 ≠ .ok none := by
  intro ch
  have sized : ∀ ip, 0 < (squareBox 1).side ip := fun ip => (square_side 1 ip).symm ▸ one_pos
  have few : ∀ ip, (ch.fPlanes ip).fNStrips ≤ 32767 := fun ip => by rw [two_strips ip]; decide
  have clear : ∀ ip, ¬ AllButWhole ((squareBox 1).side ip / 2 / 1) := by
    intro ip
    rw [square_side, AllButWhole]
    norm_num
  exact (avalanche_hits_formed (bench 3 1).par unwritten (squareBox 1) sized (fun _ => 1) (fun _ => one_pos) few _ _ 0 _
    short_segment_accepted).1 clear

-- A square that a tenth of a nanometre keeps from two metres gets a third
-- strip; the segment from corner to corner is accepted and then lost.
theorem avalanche_lost_across_plane :
    let ch := crossedChamber (squareBox (2 - 1e-10)) (fun _ => 1)
    (∀ ip, (ch.fPlanes ip).fNStrips = 3) ∧
      (∃ r, activeRegion ch (diffusionArea (bench 3 1).par unwritten ⟨-2000, -2000, 0⟩ ⟨2000, 2000, 3⟩) = some r ∧
        ∀ ip, stripRange (ch.fPlanes ip) r = some none) ∧
      avaModel (bench 3 1).par unwritten ch ⟨-2000, -2000, 0⟩ ⟨2000, 2000, 3⟩ 0 = .ok none := by
  intro ch
  have sized : ∀ ip, 0 < (squareBox (2 - 1e-10)).side ip := by
    intro ip
    rw [square_side]
    norm_num
  have reached : ∀ ip, AllButWhole ((squareBox (2 - 1e-10)).side ip / 2 / 1) := by
    intro ip
    rw [square_side, AllButWhole]
    norm_num
  have count : ∀ ip, (ch.fPlanes ip).fNStrips = 3 := by
    intro ip
    have overhang := crossed_overhang (squareBox (2 - 1e-10)) (fun _ => 1) ip one_pos (sized ip) (reached ip)
    have bound := (crossed_count (squareBox (2 - 1e-10)) (fun _ => 1) ip sized one_pos).2
    rw [square_side] at overhang bound
    change _ < (((ch.fPlanes ip).fNStrips - 1 : Int) : ℝ) * 1 at overhang
    change ((ch.fPlanes ip).fNStrips : ℝ) < _ at bound
    generalize (ch.fPlanes ip).fNStrips = n at overhang bound
    have above : 2 < n := by
      have apart : ((2 : Int) : ℝ) < (n : ℝ) := by
        norm_num at overhang ⊢
        linarith
      exact_mod_cast apart
    have below : n < 4 := by
      have apart : (n : ℝ) < ((4 : Int) : ℝ) := by
        norm_num at bound ⊢
        linarith
      exact_mod_cast apart
    omega
  have few : ∀ ip, (ch.fPlanes ip).fNStrips ≤ 32767 := fun ip => by rw [count ip]; decide
  have limit : ∀ ip, clipLimit (squareBox (2 - 1e-10)) (fun _ => 1) ip = 1000 := by
    intro ip
    rw [clip_limit_eq]
    change (((ch.fPlanes ip).fNStrips - 1 : Int) : ℝ) * 1 / 2 * 1000 = 1000
    rw [count ip]
    norm_num
  have area := straight_area 1 2000 3 (by norm_num)
  refine ⟨count, whole_plane_lost (squareBox (2 - 1e-10)) (fun _ => 1) (bench 3 1).par unwritten sized (fun _ => one_pos) few (reached 0)
    _ _ 0 ?_ ?_⟩
  · rw [area, limit 0]
    norm_num
  · rw [area, limit 1]
    norm_num

end Solgem
