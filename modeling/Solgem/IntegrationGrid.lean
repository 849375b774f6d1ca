import Solgem.AvaClipping

set_option autoImplicit false

namespace Solgem

open Lib GEMPlane

section
variable {F : Type} [Arith F]

-- A chamber as the database describes it: ReadGeometry gives each plane its
-- own angle and pitch, and the box of the chamber.
def readChamber (fBox : Box F) (stripangle fSPitch : Fin 2 → F) : GEMChamber F where
  fPlanes := fun ip => readGeometry fBox (stripangle ip) (fSPitch ip)
  fBox := fBox

-- A point in mm lies in the box of the chamber, which is in metres.
def Box.holds (b : Box F) (x y : F) : Prop := b.contains (x / 1000.0) (y / 1000.0) = true

-- AvaModel goes on when one of the two corners does.
def CornerHeld (b : Box F) (r : Region F) : Prop := b.holds r.x0 r.y0 ∨ b.holds r.x1 r.y1

-- Both corners lie on one line between two rows of integration steps.
def OnStepLine (par : Params F) (pl : GEMPlane F) (r : Region F) : Prop :=
  (toStripFrame pl r.x0 r.y0).2 = (toStripFrame pl r.x1 r.y1).2 ∧
    ∃ k : Int, (toStripFrame pl r.x0 r.y0).2 = Arith.ofInt k * (pl.fSPitch * 1000.0 / Arith.ofInt par.fYIntegralStepsPerPitch)

def stripsAcross (pl : GEMPlane F) (r : Region F) : Int :=
  let s0 := pl.getStripInRange ((toStripFrame pl r.x0 r.y0).1 * 1e-3)
  let s1 := pl.getStripInRange ((toStripFrame pl r.x1 r.y1).1 * 1e-3)
  max s0 s1 - min s0 s1 + 1

-- The columns of integration steps, formed as UInt_t, still are a positive
-- Int_t.
def ColumnsCounted (par : Params F) (pl : GEMPlane F) (r : Region F) : Prop :=
  let columns := stripsAcross pl r * par.fXIntegralStepsPerPitch % 2 ^ 32
  0 < columns ∧ columns < 2 ^ 31

-- What the assert of AvaModel demands of a plane, where it gets that far.
def GridFilled (par : Params F) (pl : GEMPlane F) (r : Region F) : Prop :=
  ∀ iL iU, stripRange pl r = some (some (iL, iU)) → 0 < (grid par pl r iL iU).nx ∧ 0 < (grid par pl r iL iU).ny

end

section
variable (fBox : Box ℝ) (stripangle fSPitch : ℝ)

theorem frame_inside (x y : ℝ) :
    let pl := readGeometry fBox stripangle fSPitch
    let c := pl.stripToPlane ((toStripFrame pl x y).1 * 1e-3, (toStripFrame pl x y).2 * 1e-3)
    pl.fBox.contains c.1 c.2 = true ↔ fBox.holds x y := by
  intro pl c
  have thousand : (1000.0 : ℝ) = 1000 := by norm_num
  have back : c = (x / 1000, y / 1000) := by
    obtain ⟨across, along⟩ := frame_metres pl x y
    change pl.stripToPlane ((toStripFrame pl x y).1 * 1e-3, (toStripFrame pl x y).2 * 1e-3) = _
    rw [across, along]
    exact strip_to_plane_back fBox stripangle fSPitch (x / 1000) (y / 1000)
  rw [back, Box.holds, thousand]
  exact Iff.rfl

theorem held_strip (pitched : 0 < fSPitch) (x y : ℝ) (held : fBox.holds x y) :
    let pl := readGeometry fBox stripangle fSPitch
    pl.getStrip ((toStripFrame pl x y).1 * 1e-3) ((toStripFrame pl x y).2 * 1e-3) =
      some (pl.getStripInRange ((toStripFrame pl x y).1 * 1e-3)) ∧ 0 < pl.fNStrips := by
  intro pl
  have inside := (frame_inside fBox stripangle fSPitch x y).mpr held
  have valid := inside_strip_number fBox stripangle fSPitch pitched pl rfl _ _ inside
  have same : pl.getStripInRange ((toStripFrame pl x y).1 * 1e-3) = pl.getStripUnchecked ((toStripFrame pl x y).1 * 1e-3) := by
    simp only [getStripInRange]
    rw [if_neg (not_lt.mpr valid.1), if_neg (not_le.mpr valid.2)]
  refine ⟨?_, by omega⟩
  rw [getStrip, if_pos inside, if_pos valid, same]

theorem lost_strip (x y : ℝ) (lost : ¬ fBox.holds x y) :
    let pl := readGeometry fBox stripangle fSPitch
    pl.getStrip ((toStripFrame pl x y).1 * 1e-3) ((toStripFrame pl x y).2 * 1e-3) = some (-1) := by
  intro pl
  exact if_neg (fun inside => lost ((frame_inside fBox stripangle fSPitch x y).mp inside))

theorem strip_range_lost_corners (r : Region ℝ) (lost : ¬ CornerHeld fBox r) :
    stripRange (readGeometry fBox stripangle fSPitch) r = some none := by
  have first := lost_strip fBox stripangle fSPitch r.x0 r.y0 (fun held => lost (.inl held))
  have second := lost_strip fBox stripangle fSPitch r.x1 r.y1 (fun held => lost (.inr held))
  rw [stripRange, first, second]
  rfl

-- A corner outside the box counts with the strip GetStripInRange gives it, so
-- the range always ends at these two strips.
theorem strip_range_held (pitched : 0 < fSPitch) (r : Region ℝ) (held : CornerHeld fBox r) :
    let pl := readGeometry fBox stripangle fSPitch
    ∃ iL iU, stripRange pl r = some (some (iL, iU)) ∧ iU - iL + 1 = stripsAcross pl r := by
  intro pl
  have strips : 0 < pl.fNStrips := by
    cases held with
    | inl first => exact (held_strip fBox stripangle fSPitch pitched _ _ first).2
    | inr second => exact (held_strip fBox stripangle fSPitch pitched _ _ second).2
  obtain ⟨low0, _⟩ := get_strip_in_range_bounds pl ((toStripFrame pl r.x0 r.y0).1 * 1e-3) strips
  obtain ⟨low1, _⟩ := get_strip_in_range_bounds pl ((toStripFrame pl r.x1 r.y1).1 * 1e-3) strips
  have across : ∀ s0 s1 : Int, s0 = pl.getStripInRange ((toStripFrame pl r.x0 r.y0).1 * 1e-3) →
      s1 = pl.getStripInRange ((toStripFrame pl r.x1 r.y1).1 * 1e-3) →
      ∃ iL iU, (if s1 < s0 then (s1, s0) else (s0, s1)) = (iL, iU) ∧ iU - iL + 1 = stripsAcross pl r := by
    intro s0 s1 first second
    rw [stripsAcross, ← first, ← second]
    by_cases swapped : s1 < s0
    · exact ⟨s1, s0, if_pos swapped, by omega⟩
    · exact ⟨s0, s1, if_neg swapped, by omega⟩
  obtain ⟨iL, iU, ordered, count⟩ := across _ _ rfl rfl
  refine ⟨iL, iU, ?_, count⟩
  rw [← ordered]
  by_cases first : fBox.holds r.x0 r.y0
  · have found0 := (held_strip fBox stripangle fSPitch pitched _ _ first).1
    by_cases second : fBox.holds r.x1 r.y1
    · have found1 := (held_strip fBox stripangle fSPitch pitched _ _ second).1
      rw [stripRange, found0, found1]
      simp only [Option.bind_eq_bind, Option.bind_some]
      rw [if_neg (fun both => absurd both.1 (not_lt.mpr low0)), if_neg (not_lt.mpr low0), if_neg (not_lt.mpr low1)]
      rfl
    · have found1 := lost_strip fBox stripangle fSPitch _ _ second
      rw [stripRange, found0, found1]
      simp only [Option.bind_eq_bind, Option.bind_some]
      rw [if_neg (fun both => absurd both.1 (not_lt.mpr low0)), if_neg (not_lt.mpr low0), if_pos (show (-1 : Int) < 0 by decide)]
      rfl
  · have second := held.resolve_left first
    have found0 := lost_strip fBox stripangle fSPitch _ _ first
    have found1 := (held_strip fBox stripangle fSPitch pitched _ _ second).1
    rw [stripRange, found0, found1]
    simp only [Option.bind_eq_bind, Option.bind_some]
    rw [if_neg (fun both => absurd both.2 (not_lt.mpr low1)), if_pos (show (-1 : Int) < 0 by decide)]
    rfl

end

theorem grid_columns (par : Params ℝ) (pl : GEMPlane ℝ) (r : Region ℝ) (iL iU : Int) (count : iU - iL + 1 = stripsAcross pl r) :
    0 < (grid par pl r iL iU).nx ↔ ColumnsCounted par pl r := by
  have product : (grid par pl r iL iU).nx = toInt32 (stripsAcross pl r * par.fXIntegralStepsPerPitch) := by rw [grid, count]
  rw [product, int32_pos_iff]
  exact Iff.rfl

theorem columns_counted (par : Params ℝ) (pl : GEMPlane ℝ) (r : Region ℝ) (strips : 0 < pl.fNStrips)
    (columns : 0 < par.fXIntegralStepsPerPitch) (few : pl.fNStrips * par.fXIntegralStepsPerPitch ≤ 2147483647) :
    ColumnsCounted par pl r := by
  obtain ⟨low0, high0⟩ := get_strip_in_range_bounds pl ((toStripFrame pl r.x0 r.y0).1 * 1e-3) strips
  obtain ⟨low1, high1⟩ := get_strip_in_range_bounds pl ((toStripFrame pl r.x1 r.y1).1 * 1e-3) strips
  have across : 1 ≤ stripsAcross pl r ∧ stripsAcross pl r ≤ pl.fNStrips := by
    simp only [stripsAcross]
    omega
  have positive : 0 < stripsAcross pl r * (par.fXIntegralStepsPerPitch : Int) := Int.mul_pos (by omega) (by omega)
  have bound : stripsAcross pl r * (par.fXIntegralStepsPerPitch : Int) ≤ pl.fNStrips * par.fXIntegralStepsPerPitch :=
    Int.mul_le_mul_of_nonneg_right across.2 (Int.natCast_nonneg _)
  have exact : stripsAcross pl r * (par.fXIntegralStepsPerPitch : Int) % 2 ^ 32 = stripsAcross pl r * par.fXIntegralStepsPerPitch :=
    Int.emod_eq_of_lt positive.le (by omega)
  simp only [ColumnsCounted, exact]
  omega

noncomputable def rowStep (par : Params ℝ) (pl : GEMPlane ℝ) : ℝ := pl.fSPitch * 1000.0 / Arith.ofInt par.fYIntegralStepsPerPitch

theorem row_step_pos (par : Params ℝ) (pl : GEMPlane ℝ) (pitched : 0 < pl.fSPitch) (rows : 0 < par.fYIntegralStepsPerPitch) :
    0 < rowStep par pl := by
  have steps : (0 : ℝ) < Arith.ofInt par.fYIntegralStepsPerPitch := by
    change (0 : ℝ) < ((par.fYIntegralStepsPerPitch : Int) : ℝ)
    exact_mod_cast rows
  exact div_pos (mul_pos pitched (by norm_num)) steps

-- The lower and the upper edge are whole numbers of steps, so rounding their
-- distance changes nothing.
theorem grid_rows_eq (par : Params ℝ) (pl : GEMPlane ℝ) (r : Region ℝ) (iL iU : Int) (step : 0 < rowStep par pl) :
    (grid par pl r iL iU).ny =
      ⌈max (toStripFrame pl r.x0 r.y0).2 (toStripFrame pl r.x1 r.y1).2 / rowStep par pl⌉ -
        ⌊min (toStripFrame pl r.x0 r.y0).2 (toStripFrame pl r.x1 r.y1).2 / rowStep par pl⌋ := by
  simp only [grid]
  change nint ((rowStep par pl * Arith.ceil (_ / rowStep par pl) - rowStep par pl * Arith.floor (_ / rowStep par pl)) / rowStep par pl) = _
  generalize (toStripFrame pl r.x0 r.y0).2 = ys0
  generalize (toStripFrame pl r.x1 r.y1).2 = ys1
  have low : (if ys1 < ys0 then ys1 else ys0) = min ys0 ys1 := by
    rw [min_comm, min_def_lt]
  have high : (if ys1 < ys0 then ys0 else ys1) = max ys0 ys1 := by
    rw [max_comm, max_def_lt]
  rw [low, high, ← mul_sub, mul_div_cancel_left₀ _ step.ne']
  change nint (((⌈max ys0 ys1 / rowStep par pl⌉ : Int) : ℝ) - ((⌊min ys0 ys1 / rowStep par pl⌋ : Int) : ℝ)) = _
  rw [← Int.cast_sub, nint_whole]

theorem grid_rows (par : Params ℝ) (pl : GEMPlane ℝ) (r : Region ℝ) (iL iU : Int) (step : 0 < rowStep par pl) :
    0 < (grid par pl r iL iU).ny ↔ ¬ OnStepLine par pl r := by
  have level : OnStepLine par pl r ↔ (toStripFrame pl r.x0 r.y0).2 = (toStripFrame pl r.x1 r.y1).2 ∧
      ∃ k : Int, (toStripFrame pl r.x0 r.y0).2 = (k : ℝ) * rowStep par pl := Iff.rfl
  rw [grid_rows_eq par pl r iL iU step, level]
  generalize (toStripFrame pl r.x0 r.y0).2 = ys0
  generalize (toStripFrame pl r.x1 r.y1).2 = ys1
  have ordered : min ys0 ys1 / rowStep par pl ≤ max ys0 ys1 / rowStep par pl := div_le_div_of_nonneg_right min_le_max step.le
  rw [cells_spanned _ _ ordered, div_left_inj' step.ne', inf_eq_sup]
  have whole : ∀ k : Int, ys0 / rowStep par pl = (k : ℝ) ↔ ys0 = (k : ℝ) * rowStep par pl := fun k => div_eq_iff step.ne'
  refine not_congr (and_congr_right (fun same => ?_))
  rw [← same, min_self]
  exact exists_congr whole

theorem straight_frame (fBox : Box ℝ) (fSPitch x y : ℝ) : toStripFrame (readGeometry fBox 0.0 fSPitch) x y = (x, y) := by
  obtain ⟨cosine, sine⟩ := plane_angle_zero fBox fSPitch
  simp only [toStripFrame, planeToStrip, cosine, sine]
  norm_num
  exact ⟨by ring, by ring⟩

theorem right_frame (fBox : Box ℝ) (fSPitch x y : ℝ) : toStripFrame (readGeometry fBox 90.0 fSPitch) x y = (y, -x) := by
  obtain ⟨cosine, sine⟩ := plane_angle_right fBox fSPitch
  simp only [toStripFrame, planeToStrip, cosine, sine]
  norm_num
  exact ⟨by ring, by ring⟩

section
variable (par : Params ℝ) (ion : IonState ℝ) (fBox : Box ℝ) (stripangle fSPitch : ℝ)

theorem grid_filled_iff (rows : 0 < par.fYIntegralStepsPerPitch) (pitched : 0 < fSPitch) (r : Region ℝ) :
    let pl := readGeometry fBox stripangle fSPitch
    GridFilled par pl r ↔ (CornerHeld fBox r → ¬ OnStepLine par pl r ∧ ColumnsCounted par pl r) := by
  intro pl
  have step := row_step_pos par pl pitched rows
  by_cases held : CornerHeld fBox r
  · obtain ⟨iL, iU, range, count⟩ := strip_range_held fBox stripangle fSPitch pitched r held
    have columns := grid_columns par pl r iL iU count
    have lines := grid_rows par pl r iL iU step
    constructor
    · intro filled _
      obtain ⟨nx, ny⟩ := filled iL iU range
      exact ⟨lines.mp ny, columns.mp nx⟩
    · intro condition iL' iU' found
      have same := range.symm.trans found
      simp only [Option.some.injEq, Prod.mk.injEq] at same
      obtain ⟨rfl, rfl⟩ := same
      obtain ⟨apart, counted⟩ := condition held
      exact ⟨columns.mpr counted, lines.mpr apart⟩
  · have none_found := strip_range_lost_corners fBox stripangle fSPitch r held
    constructor
    · intro _ some_corner
      exact absurd some_corner held
    · intro _ iL iU found
      cases none_found.symm.trans found

theorem ava_plane_checked (pitched : 0 < fSPitch) (r : Region ℝ) (t0 : ℝ) :
    let pl := readGeometry fBox stripangle fSPitch
    (¬ CornerHeld fBox r → avaPlane par ion pl r t0 = .ok none) ∧
      (CornerHeld fBox r → GridFilled par pl r → ∃ vv, avaPlane par ion pl r t0 = .ok (some vv)) ∧
      (¬ GridFilled par pl r → avaPlane par ion pl r t0 = .error .avaModel) := by
  intro pl
  refine ⟨fun lost => ?_, fun held filled => ?_, fun empty => ?_⟩
  · rw [avaPlane, strip_range_lost_corners fBox stripangle fSPitch r lost]
    rfl
  · obtain ⟨iL, iU, range, _⟩ := strip_range_held fBox stripangle fSPitch pitched r held
    rw [ava_plane_region par ion pl r t0 iL iU range, if_pos (filled iL iU range)]
    exact ⟨_, rfl⟩
  · simp only [GridFilled, not_forall] at empty
    obtain ⟨iL, iU, range, bare⟩ := empty
    rw [ava_plane_region par ion pl r t0 iL iU range, if_neg bare]

end

section
variable (par : Params ℝ) (ion : IonState ℝ) (fBox : Box ℝ) (stripangle fSPitch : Fin 2 → ℝ) (xi xo : V3 ℝ) (t0 : ℝ) (r : Region ℝ)
  (accepted : activeRegion (readChamber fBox stripangle fSPitch) (diffusionArea par ion xi xo) = some r)

include accepted

theorem assert_iff (pitches : ∀ ip, 0 < fSPitch ip) :
    avaModel par ion (readChamber fBox stripangle fSPitch) xi xo t0 ≠ .error .avaModel ↔
      ∀ ip, GridFilled par ((readChamber fBox stripangle fSPitch).fPlanes ip) r := by
  obtain ⟨lost0, hit0, fault0⟩ := ava_plane_checked par ion fBox (stripangle 0) (fSPitch 0) (pitches 0) r t0
  obtain ⟨_, hit1, fault1⟩ := ava_plane_checked par ion fBox (stripangle 1) (fSPitch 1) (pitches 1) r t0
  change ∀ _, avaPlane par ion ((readChamber fBox stripangle fSPitch).fPlanes 0) r t0 = .ok none at lost0
  rw [avaModel, accepted]
  simp only [bind, Except.bind]
  by_cases first : GridFilled par ((readChamber fBox stripangle fSPitch).fPlanes 0) r
  · by_cases held : CornerHeld fBox r
    · obtain ⟨u, builtU⟩ := hit0 held first
      change avaPlane par ion ((readChamber fBox stripangle fSPitch).fPlanes 0) r t0 = .ok (some u) at builtU
      rw [builtU]
      by_cases second : GridFilled par ((readChamber fBox stripangle fSPitch).fPlanes 1) r
      · obtain ⟨v, builtV⟩ := hit1 held second
        change avaPlane par ion ((readChamber fBox stripangle fSPitch).fPlanes 1) r t0 = .ok (some v) at builtV
        simp only [builtV]
        refine iff_of_true (fun failed => by cases failed) (fun ip => ?_)
        rcases projections ip with rfl | rfl
        · exact first
        · exact second
      · have failed : avaPlane par ion ((readChamber fBox stripangle fSPitch).fPlanes 1) r t0 = .error .avaModel := fault1 second
        simp only [failed]
        exact iff_of_false (fun passed => passed rfl) (fun filled => second (filled 1))
    · rw [lost0 held]
      refine iff_of_true (fun failed => by cases failed) (fun ip iL iU found => ?_)
      cases (strip_range_lost_corners fBox (stripangle ip) (fSPitch ip) r held).symm.trans found
  · have failed : avaPlane par ion ((readChamber fBox stripangle fSPitch).fPlanes 0) r t0 = .error .avaModel := fault0 first
    rw [failed]
    exact iff_of_false (fun passed => passed rfl) (fun filled => first (filled 0))

end

end Solgem
