import Solgem.ExactArith
import Solgem.Geometry
import Solgem.Lib.Least

set_option autoImplicit false

namespace Solgem

open Lib

section
variable {F : Type} [Arith F]

-- round of the C library: to the nearest integer, a half away from zero.
def roundAway (x : F) : Int :=
  let t := Arith.trunc x
  if Arith.abs (x - Arith.ofInt t) < 0.5 then t else if x < 0.0 then t - 1 else t + 1

namespace GEMPlane

-- The strip of one corner, counted from the middle of the plane.
def cornerStrip (q : F) : Int := if Arith.ofInt (roundAway q) - q < 1.0e-10 then roundAway q else Arith.trunc q

def corners (fBox : Box F) : List (F × F) :=
  let xs0 := fBox.fDX / 2.0
  let ys0 := fBox.fDY / 2.0
  [(xs0, ys0), (xs0, -ys0), (-xs0, ys0), (-xs0, -ys0)]

-- The angle is read in degrees.
def readGeometry (fBox : Box F) (stripangle fSPitch : F) : GEMPlane F :=
  let torad := Arith.pi / 4.0 / 45.0
  let fSAngle := stripangle * torad
  let fCBS := Arith.cos (-fSAngle)
  let fSBS := Arith.sin (-fSAngle)
  let (smin, smax) := (corners fBox).foldl (fun (acc : Int × Int) corner =>
    let s := cornerStrip ((fCBS * corner.1 - fSBS * corner.2) / fSPitch)
    (if s < acc.1 then s else acc.1, if acc.2 < s then s else acc.2)) (Arith.trunc (1.0e9 : F), Arith.trunc (1.0e-9 : F))
  let fNStrips := smax - smin + 1
  ⟨fSAngle, fNStrips, fSPitch, Arith.ofInt (-fNStrips) * fSPitch * 0.5, fBox, fCBS, fSBS⟩

end GEMPlane

end

namespace GEMPlane

-- To the right of the middle a corner counts the full strips before it, and
-- one more when it is all but reached.
theorem corner_strip_right (q : ℝ) (right : 0 ≤ q) : ⌊q⌋ ≤ cornerStrip q ∧ (cornerStrip q : ℝ) < q + 1.0e-10 := by
  have low := Int.floor_le q
  have rounded : ⌊q⌋ ≤ roundAway q := by
    rw [roundAway, trunc_of_nonneg q right, if_neg (show ¬ q < 0.0 by norm_num; exact right)]
    split
    · exact le_refl _
    · omega
  rw [cornerStrip]
  by_cases reached : Arith.ofInt (roundAway q) - q < 1.0e-10
  · rw [if_pos reached]
    change ((roundAway q : ℤ) : ℝ) - q < 1.0e-10 at reached
    exact ⟨rounded, by linarith⟩
  · rw [if_neg reached, trunc_of_nonneg q right]
    exact ⟨le_refl _, by norm_num; linarith⟩

theorem round_away_neg (q : ℝ) (left : q < 0) :
    ((roundAway q : ℤ) = ⌈q⌉ ∧ (⌈q⌉ : ℝ) < q + 1 / 2) ∨ (roundAway q : ℤ) = ⌈q⌉ - 1 ∧ q + 1 / 2 ≤ ⌈q⌉ := by
  have low := Int.le_ceil q
  have distance : |q - ((⌈q⌉ : ℤ) : ℝ)| = ⌈q⌉ - q := by
    rw [abs_of_nonpos (by linarith)]
    ring
  rw [roundAway, trunc_of_neg q left]
  by_cases near : Arith.abs (q - Arith.ofInt ⌈q⌉) < 0.5
  · rw [if_pos near]
    change |q - ((⌈q⌉ : ℤ) : ℝ)| < 0.5 at near
    rw [distance] at near
    exact .inl ⟨rfl, by linarith⟩
  · rw [if_neg near, if_pos (show q < 0.0 by norm_num; exact left)]
    change ¬ |q - ((⌈q⌉ : ℤ) : ℝ)| < 0.5 at near
    rw [distance] at near
    exact .inr ⟨rfl, by linarith⟩

theorem corner_strip_left (q : ℝ) (left : q < 0) : q - 1 / 2 ≤ (cornerStrip q : ℝ) ∧ (cornerStrip q : ℝ) < q + 1 / 2 := by
  have low := Int.le_ceil q
  have high := Int.ceil_lt_add_one q
  rw [cornerStrip]
  by_cases reached : Arith.ofInt (roundAway q) - q < 1.0e-10
  · rw [if_pos reached]
    change ((roundAway q : ℤ) : ℝ) - q < 1.0e-10 at reached
    rcases round_away_neg q left with ⟨same, near⟩ | ⟨same, far⟩
    · rw [same]
      exact ⟨by linarith, near⟩
    · rw [same]
      push_cast
      exact ⟨by linarith, by linarith⟩
  · rw [if_neg reached, trunc_of_neg q left]
    change ¬ ((roundAway q : ℤ) : ℝ) - q < 1.0e-10 at reached
    rcases round_away_neg q left with ⟨same, near⟩ | ⟨same, far⟩
    · exact ⟨by linarith, near⟩
    · rw [same] at reached
      push_cast at reached
      exact absurd (show (⌈q⌉ : ℝ) - 1 - q < 1.0e-10 by norm_num; linarith) reached

theorem read_geometry_count (fBox : Box ℝ) (stripangle fSPitch : ℝ) :
    let pl := readGeometry fBox stripangle fSPitch
    let number := fun corner : ℝ × ℝ => cornerStrip ((pl.planeToStrip corner).1 / fSPitch)
    ∃ smin smax : Int, pl.fNStrips = smax - smin + 1 ∧
      (∀ corner ∈ corners fBox, smin ≤ number corner ∧ number corner ≤ smax) ∧
      (smin = Arith.trunc (1.0e9 : ℝ) ∨ ∃ corner ∈ corners fBox, smin = number corner) ∧
      (smax = Arith.trunc (1.0e-9 : ℝ) ∨ ∃ corner ∈ corners fBox, smax = number corner) := by
  intro pl number
  have widened := widen_loop number (corners fBox) (Arith.trunc (1.0e9 : ℝ)) (Arith.trunc (1.0e-9 : ℝ)) _ rfl
  exact ⟨_, _, rfl, widened⟩

theorem corner_strip_nonpos (q : ℝ) (left : q ≤ 0) : cornerStrip q ≤ 0 := by
  have below : (cornerStrip q : ℝ) < (1 : Int) := by
    push_cast
    cases eq_or_lt_of_le left with
    | inl middle =>
        have reached := (corner_strip_right q middle.ge).2
        rw [middle] at reached ⊢
        norm_num at reached
        linarith
    | inr outside => linarith [(corner_strip_left q outside).2]
  have small : cornerStrip q < 1 := by exact_mod_cast below
  omega

theorem corner_strip_nonneg (q : ℝ) (right : 0 ≤ q) : 0 ≤ cornerStrip q :=
  (Int.floor_nonneg.mpr right).trans (corner_strip_right q right).1

theorem corner_strip_within (q u : ℝ) (reach : |q| ≤ u) : -u - 1 / 2 ≤ (cornerStrip q : ℝ) ∧ (cornerStrip q : ℝ) < u + 1.0e-10 := by
  obtain ⟨below, above⟩ := abs_le.mp reach
  cases lt_or_ge q 0 with
  | inl left =>
      have top : (cornerStrip q : ℝ) ≤ 0 := by exact_mod_cast corner_strip_nonpos q left.le
      refine ⟨by linarith [(corner_strip_left q left).1], top.trans_lt ?_⟩
      norm_num
      linarith
  | inr right =>
      have nonneg : (0 : ℝ) ≤ (cornerStrip q : ℝ) := by exact_mod_cast corner_strip_nonneg q right
      exact ⟨by linarith, (corner_strip_right q right).2.trans_le (by linarith)⟩

theorem strips_cover (u : ℝ) (nonneg : 0 ≤ u) (smin smax : Int) (right : cornerStrip u ≤ smax) (left : smin ≤ cornerStrip (-u)) :
    2 * u < ((smax - smin + 1 : Int) : ℝ) := by
  have full := (corner_strip_right u nonneg).1
  have whole := Int.lt_floor_add_one u
  have inside := Int.floor_le u
  have below : (cornerStrip (-u) : ℝ) < -u + 1 / 2 := by
    cases eq_or_lt_of_le nonneg with
    | inl zero =>
        have middle := (corner_strip_right 0 (le_refl 0)).2
        rw [← zero, neg_zero]
        norm_num at middle
        linarith
    | inr positive => exact (corner_strip_left (-u) (neg_neg_iff_pos.mpr positive)).2
  by_cases half : u < ⌊u⌋ + 1 / 2
  · have low : cornerStrip (-u) < -⌊u⌋ + 1 := by
      have apart : (cornerStrip (-u) : ℝ) < ((-⌊u⌋ + 1 : Int) : ℝ) := by
        push_cast
        linarith
      exact_mod_cast apart
    have count : ((2 * ⌊u⌋ + 1 : Int) : ℝ) ≤ ((smax - smin + 1 : Int) : ℝ) := by
      exact_mod_cast (by omega : 2 * ⌊u⌋ + 1 ≤ smax - smin + 1)
    push_cast at count ⊢
    linarith
  · have low : cornerStrip (-u) < -⌊u⌋ := by
      have apart : (cornerStrip (-u) : ℝ) < ((-⌊u⌋ : Int) : ℝ) := by
        push_cast
        linarith
      exact_mod_cast apart
    have count : ((2 * ⌊u⌋ + 2 : Int) : ℝ) ≤ ((smax - smin + 1 : Int) : ℝ) := by
      exact_mod_cast (by omega : 2 * ⌊u⌋ + 2 ≤ smax - smin + 1)
    push_cast at count ⊢
    linarith

-- How far the box reaches along the strip frame's x axis.
noncomputable def halfWidth (pl : GEMPlane ℝ) : ℝ := |pl.fCBS| * (pl.fBox.fDX / 2.0) + |pl.fSBS| * (pl.fBox.fDY / 2.0)

theorem half_width_eq (pl : GEMPlane ℝ) : pl.halfWidth = |pl.fCBS| * (pl.fBox.fDX / 2) + |pl.fSBS| * (pl.fBox.fDY / 2) := by
  rw [halfWidth, show (2.0 : ℝ) = 2 by norm_num]

theorem outward_side (c size : ℝ) : ∃ side, (side = size ∨ side = -size) ∧ c * side = |c| * size := by
  cases le_total 0 c with
  | inl right => exact ⟨size, .inl rfl, by rw [abs_of_nonneg right]⟩
  | inr left => exact ⟨-size, .inr rfl, by rw [abs_of_nonpos left]; ring⟩

theorem corner_extent (pl : GEMPlane ℝ) :
    (∃ right ∈ corners pl.fBox, (pl.planeToStrip right).1 = pl.halfWidth) ∧
      ∃ left ∈ corners pl.fBox, (pl.planeToStrip left).1 = -pl.halfWidth := by
  have two : (2.0 : ℝ) = 2 := by norm_num
  obtain ⟨x, sideX, reachX⟩ := outward_side pl.fCBS (pl.fBox.fDX / 2)
  obtain ⟨y, sideY, reachY⟩ := outward_side pl.fSBS (pl.fBox.fDY / 2)
  refine ⟨⟨(x, -y), ?_, ?_⟩, (-x, y), ?_, ?_⟩
  · rcases sideX with rfl | rfl <;> rcases sideY with rfl | rfl <;> simp [corners, two]
  · rw [planeToStrip, half_width_eq, ← reachX, ← reachY]
    ring
  · rcases sideX with rfl | rfl <;> rcases sideY with rfl | rfl <;> simp [corners, two]
  · rw [planeToStrip, half_width_eq, ← reachX, ← reachY]
    ring

theorem contains_iff (b : Box ℝ) (x y : ℝ) : b.contains x y = true ↔ |x| ≤ b.fDX / 2 ∧ |y| ≤ b.fDY / 2 := by
  have two : (2.0 : ℝ) = 2 := by norm_num
  rw [Box.contains, two]
  by_cases outside : b.fDX / 2 < Arith.abs x ∨ b.fDY / 2 < Arith.abs y
  · rw [if_pos outside]
    refine iff_of_false Bool.false_ne_true (fun inside => ?_)
    cases outside with
    | inl far => exact absurd inside.1 (not_le.mpr far)
    | inr far => exact absurd inside.2 (not_le.mpr far)
  · rw [if_neg outside]
    exact iff_of_true rfl ⟨not_lt.mp (fun far => outside (.inl far)), not_lt.mp (fun far => outside (.inr far))⟩

theorem inside_extent (pl : GEMPlane ℝ) (unit : pl.fCBS * pl.fCBS + pl.fSBS * pl.fSBS = 1) (x yc : ℝ)
    (inside : pl.fBox.contains (pl.stripToPlane (x, yc)).1 (pl.stripToPlane (x, yc)).2 = true) : |x| ≤ pl.halfWidth := by
  obtain ⟨column, row⟩ := (contains_iff _ _ _).mp inside
  have turned : x = pl.fCBS * (pl.stripToPlane (x, yc)).1 - pl.fSBS * (pl.stripToPlane (x, yc)).2 := by
    simp only [stripToPlane]
    linear_combination -x * unit
  calc |x| = |pl.fCBS * (pl.stripToPlane (x, yc)).1 - pl.fSBS * (pl.stripToPlane (x, yc)).2| := congrArg abs turned
    _ ≤ |pl.fCBS| * |(pl.stripToPlane (x, yc)).1| + |pl.fSBS| * |(pl.stripToPlane (x, yc)).2| := by
        rw [← abs_mul, ← abs_mul]
        exact abs_sub _ _
    _ ≤ |pl.fCBS| * (pl.fBox.fDX / 2) + |pl.fSBS| * (pl.fBox.fDY / 2) :=
        add_le_add (mul_le_mul_of_nonneg_left column (abs_nonneg _)) (mul_le_mul_of_nonneg_left row (abs_nonneg _))
    _ = pl.halfWidth := (half_width_eq pl).symm

section
variable (fBox : Box ℝ) (stripangle fSPitch : ℝ)

theorem read_geometry_rotation : (readGeometry fBox stripangle fSPitch).fCBS * (readGeometry fBox stripangle fSPitch).fCBS +
    (readGeometry fBox stripangle fSPitch).fSBS * (readGeometry fBox stripangle fSPitch).fSBS = 1 := by
  have unit := Real.cos_sq_add_sin_sq (-(stripangle * (Real.pi / 4.0 / 45.0)))
  rw [sq, sq] at unit
  exact unit

-- The strip coordinate in units of strips, from the first edge on.
theorem strip_coordinate (pitch : 0 < fSPitch) (x : ℝ) :
    (x - (readGeometry fBox stripangle fSPitch).fSBeg) / (readGeometry fBox stripangle fSPitch).fSPitch =
      x / fSPitch + ((readGeometry fBox stripangle fSPitch).fNStrips : ℝ) / 2 := by
  have begin : (readGeometry fBox stripangle fSPitch).fSBeg =
      ((-(readGeometry fBox stripangle fSPitch).fNStrips : Int) : ℝ) * fSPitch * 0.5 := rfl
  have same : (readGeometry fBox stripangle fSPitch).fSPitch = fSPitch := rfl
  rw [begin, same]
  push_cast
  field_simp
  norm_num
  ring

theorem read_geometry_cover (pitch : 0 < fSPitch) (sized : 0 ≤ (readGeometry fBox stripangle fSPitch).halfWidth) :
    2 * ((readGeometry fBox stripangle fSPitch).halfWidth / fSPitch) < ((readGeometry fBox stripangle fSPitch).fNStrips : ℝ) := by
  obtain ⟨smin, smax, count, within, _⟩ := read_geometry_count fBox stripangle fSPitch
  obtain ⟨⟨right, rightCorner, rightEnd⟩, left, leftCorner, leftEnd⟩ := corner_extent (readGeometry fBox stripangle fSPitch)
  have high := (within right rightCorner).2
  have low := (within left leftCorner).1
  simp only [rightEnd] at high
  simp only [leftEnd, neg_div] at low
  rw [count]
  exact strips_cover _ (div_nonneg sized pitch.le) smin smax high low

theorem corner_within (pl : GEMPlane ℝ) (wide : 0 ≤ pl.fBox.fDX) (tall : 0 ≤ pl.fBox.fDY) (corner : ℝ × ℝ)
    (member : corner ∈ corners pl.fBox) : |(pl.planeToStrip corner).1| ≤ pl.halfWidth := by
  have two : (2.0 : ℝ) = 2 := by norm_num
  have sides : |corner.1| = pl.fBox.fDX / 2 ∧ |corner.2| = pl.fBox.fDY / 2 := by
    have x : |pl.fBox.fDX / 2| = pl.fBox.fDX / 2 := abs_of_nonneg (by linarith)
    have y : |pl.fBox.fDY / 2| = pl.fBox.fDY / 2 := abs_of_nonneg (by linarith)
    simp only [corners, two, List.mem_cons, List.not_mem_nil, or_false] at member
    rcases member with rfl | rfl | rfl | rfl <;> simp only [abs_neg, x, y, and_self]
  calc |(pl.planeToStrip corner).1| ≤ |pl.fCBS| * |corner.1| + |pl.fSBS| * |corner.2| := by
        rw [← abs_mul, ← abs_mul]
        exact abs_sub _ _
    _ = pl.halfWidth := by rw [sides.1, sides.2, half_width_eq]

theorem read_geometry_bound (pitch : 0 < fSPitch) (wide : 0 ≤ fBox.fDX) (tall : 0 ≤ fBox.fDY) :
    ((readGeometry fBox stripangle fSPitch).fNStrips : ℝ) < 2 * ((readGeometry fBox stripangle fSPitch).halfWidth / fSPitch) + 2 := by
  obtain ⟨smin, smax, count, _, least, greatest⟩ := read_geometry_count fBox stripangle fSPitch
  have within := corner_within (readGeometry fBox stripangle fSPitch) wide tall
  have corner_bounds : ∀ corner ∈ corners fBox, ∀ number : Int,
      number = cornerStrip (((readGeometry fBox stripangle fSPitch).planeToStrip corner).1 / fSPitch) →
      -((readGeometry fBox stripangle fSPitch).halfWidth / fSPitch) - 1 / 2 ≤ (number : ℝ) ∧
        (number : ℝ) < (readGeometry fBox stripangle fSPitch).halfWidth / fSPitch + 1.0e-10 := by
    intro corner member number same
    have reach : |((readGeometry fBox stripangle fSPitch).planeToStrip corner).1 / fSPitch| ≤
        (readGeometry fBox stripangle fSPitch).halfWidth / fSPitch := by
      rw [abs_div, abs_of_pos pitch]
      exact div_le_div_of_nonneg_right (within corner member) pitch.le
    rw [same]
    exact corner_strip_within _ _ reach
  have sized : 0 ≤ (readGeometry fBox stripangle fSPitch).halfWidth / fSPitch :=
    div_nonneg ((abs_nonneg _).trans (within (fBox.fDX / 2.0, fBox.fDY / 2.0) (List.mem_cons_self ..))) pitch.le
  have low : -((readGeometry fBox stripangle fSPitch).halfWidth / fSPitch) - 1 / 2 ≤ (smin : ℝ) := by
    rcases least with start | ⟨corner, member, same⟩
    · have nonneg : (0 : ℝ) ≤ (smin : ℝ) := by
        exact_mod_cast start ▸ trunc_nonneg (1.0e9 : ℝ) (by norm_num)
      linarith
    · exact (corner_bounds corner member smin same).1
  have high : (smax : ℝ) < (readGeometry fBox stripangle fSPitch).halfWidth / fSPitch + 1.0e-10 := by
    rcases greatest with start | ⟨corner, member, same⟩
    · have zero : smax = 0 := start.trans (trunc_eq (1.0e-9 : ℝ) 0 (le_refl 0) (by norm_num) (by norm_num))
      rw [zero]
      norm_num
      linarith
    · exact (corner_bounds corner member smax same).2
  rw [count]
  push_cast
  norm_num at high ⊢
  linarith

theorem strip_number_valid (pitch : 0 < fSPitch) (x : ℝ) (extent : |x| ≤ (readGeometry fBox stripangle fSPitch).halfWidth) :
    0 ≤ (readGeometry fBox stripangle fSPitch).getStripUnchecked x ∧
      (readGeometry fBox stripangle fSPitch).getStripUnchecked x < (readGeometry fBox stripangle fSPitch).fNStrips := by
  have cover := read_geometry_cover fBox stripangle fSPitch pitch ((abs_nonneg x).trans extent)
  have coordinate := strip_coordinate fBox stripangle fSPitch pitch x
  have reach : |x / fSPitch| ≤ (readGeometry fBox stripangle fSPitch).halfWidth / fSPitch := by
    rw [abs_div, abs_of_pos pitch]
    exact div_le_div_of_nonneg_right extent pitch.le
  generalize readGeometry fBox stripangle fSPitch = pl at *
  obtain ⟨below, above⟩ := abs_le.mp reach
  have first : 0 ≤ x / fSPitch + (pl.fNStrips : ℝ) / 2 := by linarith
  rw [getStripUnchecked, coordinate]
  refine ⟨trunc_nonneg _ first, ?_⟩
  have apart : ((Arith.trunc (x / fSPitch + (pl.fNStrips : ℝ) / 2) : Int) : ℝ) < (pl.fNStrips : ℝ) :=
    (trunc_lower _ first).trans_lt (by linarith)
  exact_mod_cast apart

theorem inside_strip_number (pitch : 0 < fSPitch) (pl : GEMPlane ℝ) (read : pl = readGeometry fBox stripangle fSPitch) (x yc : ℝ)
    (inside : pl.fBox.contains (pl.stripToPlane (x, yc)).1 (pl.stripToPlane (x, yc)).2 = true) :
    0 ≤ pl.getStripUnchecked x ∧ pl.getStripUnchecked x < pl.fNStrips := by
  have unit : pl.fCBS * pl.fCBS + pl.fSBS * pl.fSBS = 1 := read ▸ read_geometry_rotation fBox stripangle fSPitch
  have extent := inside_extent pl unit x yc inside
  rw [read] at extent ⊢
  exact strip_number_valid fBox stripangle fSPitch pitch x extent

-- The assert of GetStrip holds of every point inside the box.
theorem strip_inside_valid (pitch : 0 < fSPitch) (pl : GEMPlane ℝ) (read : pl = readGeometry fBox stripangle fSPitch) (x yc : ℝ)
    (inside : pl.fBox.contains (pl.stripToPlane (x, yc)).1 (pl.stripToPlane (x, yc)).2 = true) :
    0 ≤ pl.getStripUnchecked x ∧ pl.getStripUnchecked x < pl.fNStrips ∧ pl.getStrip x yc = some (pl.getStripUnchecked x) := by
  have valid := inside_strip_number fBox stripangle fSPitch pitch pl read x yc inside
  refine ⟨valid.1, valid.2, ?_⟩
  rw [getStrip, if_pos inside, if_pos valid]

theorem strip_inside_valid_corner :
    let box : Box ℝ := ⟨0, 0, 2, 1, fun i j => if i = j then 1 else 0⟩
    let pl := readGeometry box 0 (3 / 10)
    0 ≤ pl.getStripUnchecked 1 ∧ pl.getStripUnchecked 1 < pl.fNStrips ∧ pl.getStrip 1 (1 / 2) = some (pl.getStripUnchecked 1) := by
  intro box pl
  refine strip_inside_valid box 0 (3 / 10) (by norm_num) pl rfl 1 (1 / 2) ((contains_iff _ _ _).mpr ?_)
  have turned : (pl.stripToPlane (1, 1 / 2)) = (1, 1 / 2) := by
    have cosine : pl.fCBS = 1 := by
      change Real.cos (-(0 * (Real.pi / 4.0 / 45.0))) = 1
      rw [zero_mul, neg_zero, Real.cos_zero]
    have sine : pl.fSBS = 0 := by
      change Real.sin (-(0 * (Real.pi / 4.0 / 45.0))) = 0
      rw [zero_mul, neg_zero, Real.sin_zero]
    rw [stripToPlane, cosine, sine]
    norm_num
  change |(pl.stripToPlane (1, 1 / 2)).1| ≤ 2 / 2 ∧ |(pl.stripToPlane (1, 1 / 2)).2| ≤ 1 / 2
  rw [turned]
  norm_num

end

end GEMPlane

end Solgem
