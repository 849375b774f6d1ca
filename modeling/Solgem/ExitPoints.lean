import Mathlib.Data.Sign.Basic
import Solgem.ExactArith
import Solgem.HitAttribution

set_option autoImplicit false

namespace Solgem

open Lib

-- What becomes of an exit coordinate u, in mm, next to a module whose half
-- width is limit.
structure Clipped (limit u stored : ℝ) : Prop where
  within : |stored| ≤ limit
  sign : SignType.sign stored = SignType.sign u
  unchanged : |u| < limit → stored = u

-- Clipping at one limit does what clipping at the other one asks for.
def ClipsAlike (used limit u : ℝ) : Prop := (|u| ≤ used ∧ |u| ≤ limit) ∨ (used < |u| ∧ used ≤ limit ∧ limit ≤ |u|)

noncomputable def clippedAt (size u : ℝ) : ℝ := (Geant4File.setAtLimit size u).getD u

theorem clipped_inside (size u : ℝ) (inside : |u| < 500 * size) : clippedAt size u = u := by
  have below : ¬ size * 5.0e2 ≤ |u| := by
    norm_num
    linarith
  have kept : Geant4File.setAtLimit size u = none := if_neg below
  rw [clippedAt, kept, Option.getD_none]

theorem clipped_outside (size u : ℝ) (outside : 500 * size ≤ |u|) : clippedAt size u = u * (500 * size / |u|) := by
  have above : size * 5.0e2 ≤ |u| := by
    norm_num
    linarith
  have limited : Geant4File.setAtLimit size u = some (u * (size * 5.0e2 / |u|)) := if_pos above
  have limit : size * 5.0e2 = 500 * size := by
    norm_num
    ring
  rw [clippedAt, limited, Option.getD_some, limit]

theorem clipped_sign (size u : ℝ) (positive : 0 < size) : SignType.sign (clippedAt size u) = SignType.sign u := by
  by_cases inside : |u| < 500 * size
  · rw [clipped_inside size u inside]
  · have outside : 500 * size ≤ |u| := not_lt.mp inside
    have factor : 0 < 500 * size / |u| := div_pos (by linarith) (by linarith)
    rw [clipped_outside size u outside, sign_mul, sign_pos factor, mul_one]

theorem clipped_abs (size u : ℝ) (positive : 0 < size) : |clippedAt size u| = min |u| (500 * size) := by
  by_cases inside : |u| < 500 * size
  · rw [clipped_inside size u inside, min_eq_left inside.le]
  · have outside : 500 * size ≤ |u| := not_lt.mp inside
    have nonzero : |u| ≠ 0 := by linarith
    have factor : 0 ≤ 500 * size / |u| := div_nonneg (by linarith) (abs_nonneg u)
    rw [clipped_outside size u outside, abs_mul, abs_of_nonneg factor, mul_div_cancel₀ _ nonzero, min_eq_right outside]

theorem clipped_same (size u : ℝ) (positive : 0 < size) : clippedAt size u = u ↔ |u| ≤ 500 * size := by
  constructor
  · intro same
    have size_of := clipped_abs size u positive
    rw [same] at size_of
    rw [size_of]
    exact min_le_right _ _
  · intro inside
    cases lt_or_eq_of_le inside with
    | inl below => exact clipped_inside size u below
    | inr edge =>
        have nonzero : |u| ≠ 0 := by linarith
        rw [clipped_outside size u edge.ge, ← edge, div_self nonzero, mul_one]

theorem clipped_exactly (used own u : ℝ) (positive : 0 < used) :
    Clipped (500 * own) u (clippedAt used u) ↔ ClipsAlike (500 * used) (500 * own) u := by
  have magnitude := clipped_abs used u positive
  have same := clipped_same used u positive
  constructor
  · intro clipped
    have within := clipped.within
    rw [magnitude] at within
    by_cases inside : |u| ≤ 500 * used
    · rw [min_eq_left inside] at within
      exact .inl ⟨inside, within⟩
    · rw [min_eq_right (not_le.mp inside).le] at within
      refine .inr ⟨not_le.mp inside, within, not_lt.mp fun below => inside ?_⟩
      exact same.mp (clipped.unchanged below)
  · intro alike
    refine ⟨?_, clipped_sign used u positive, fun below => ?_⟩
    · rw [magnitude]
      cases alike with
      | inl inside => exact (min_le_left _ _).trans inside.2
      | inr outside => exact (min_le_right _ _).trans outside.2.1
    · cases alike with
      | inl inside => exact same.mpr inside.1
      | inr outside => exact absurd outside.2.2 (not_le.mpr below)

theorem clips_alike_same (limit u : ℝ) : ClipsAlike limit limit u := by
  by_cases inside : |u| ≤ limit
  · exact .inl ⟨inside, inside⟩
  · exact .inr ⟨not_le.mp inside, le_refl limit, (not_le.mp inside).le⟩

def DBManager.PositiveSizes (m : DBManager ℝ) : Prop :=
  ∀ i j record, m.geoInfo i j = some record → 0 < record.dx ∧ 0 < record.dy

-- The module of a hit is valid: the lookup gave no failure value.
def ValidModule (m : DBManager ℝ) (h : RawHit ℝ) (module : Int) : Prop :=
  m.getModuleIDFromPos (h.plane - 1) h.tx = some module ∧ module ≠ fErrVal ∧ module ≠ -1

structure ExitClipped (own : GeoInfo ℝ) (h : RawHit ℝ) (record : G4SBSHitData ℝ) : Prop where
  x : Clipped (500 * own.dx) ((h.xout - own.xoffset) * 1000) (record.getData 9)
  y : Clipped (500 * own.dy) (h.yout * 1000) (record.getData 10)

-- The exit point is clipped alike at the module's own size and at the size of
-- module 0 of the plane.
structure AlikeAtSector (first own : GeoInfo ℝ) (h : RawHit ℝ) : Prop where
  x : ClipsAlike (500 * first.dx) (500 * own.dx) ((h.xout - own.xoffset) * 1000)
  y : ClipsAlike (500 * first.dy) (500 * own.dy) (h.yout * 1000)

theorem check_index_zero (m : DBManager ℝ) (i : Int) (x : ℝ) (module : Int) (found : m.getModuleIDFromPos i x = some module)
    (no_error : module ≠ fErrVal) : m.checkIndex i 0 = some true := by
  obtain ⟨valid, checked, result⟩ := Option.map_eq_some_iff.mp found
  cases valid with
  | true => exact checked
  | false => exact absurd result.symm no_error

theorem valid_module_records (info : GeneralInfo) (m : DBManager ℝ) (loaded : Loaded info m) (h : RawHit ℝ) (module : Int)
    (valid : ValidModule m h module) :
    ∃ own first, m.geoInfo (h.plane - 1) module = some own ∧ m.geoInfo (h.plane - 1) 0 = some first ∧
      m.checkIndex (h.plane - 1) module = some true ∧ m.checkIndex (h.plane - 1) 0 = some true := by
  obtain ⟨found, no_error, listed⟩ := valid
  have first_valid := check_index_zero m _ _ module found no_error
  obtain failed | failed | inside := module_from_pos info m loaded (h.plane - 1) h.tx module found
  · exact absurd failed no_error
  · exact absurd failed listed
  · obtain ⟨low, count, entry, below⟩ := inside.counted
    obtain ⟨own, record, _⟩ := inside.spans
    have size := loaded.records (h.plane - 1).toNat count entry
    rw [Int.toNat_of_nonneg inside.plane.1] at size
    have room : 0 < ((m.fPMGeoInfo (h.plane - 1)).getD []).length := by omega
    have chamber : ¬ (m.fNChamber ≤ h.plane - 1 ∨ h.plane - 1 < 0) := by
      intro outside
      rw [DBManager.checkIndex, if_pos outside] at first_valid
      cases first_valid
    refine ⟨own, _, record, List.getElem?_eq_getElem room, ?_, first_valid⟩
    rw [DBManager.checkIndex, if_neg chamber, loaded.counts, entry, Option.map_some, decide_eq_false (by omega)]
    rfl

theorem get_geo_of_valid (m : DBManager ℝ) (field : GeoInfo ℝ → ℝ) (i j : Int) (record : GeoInfo ℝ)
    (checked : m.checkIndex i j = some true) (listed : m.geoInfo i j = some record) :
    m.getGeo field i j = some (field record) := by
  rw [DBManager.getGeo, checked, Option.bind_some, if_pos rfl, listed, Option.map_some]

-- The exit point of a record, by the module whose size limits it.
theorem recorded_exit (g : Geant4File ℝ) (block : HitBlock ℝ) (h : RawHit ℝ) (record : G4SBSHitData ℝ)
    (recorded : Geant4File.Recorded g block h record) (module : Int) (own used : GeoInfo ℝ)
    (found : g.fManager.getModuleIDFromPos (h.plane - 1) h.tx = some module)
    (checked : g.fManager.checkIndex (h.plane - 1) module = some true)
    (listed : g.fManager.geoInfo (h.plane - 1) module = some own)
    (usedChecked : g.fManager.checkIndex (h.plane - 1) (block.side module) = some true)
    (usedListed : g.fManager.geoInfo (h.plane - 1) (block.side module) = some used) :
    record.getData 9 = clippedAt used.dx ((h.xout - own.xoffset) * 1000) ∧
      record.getData 10 = clippedAt used.dy (h.yout * 1000) := by
  obtain ⟨module', values, found', made, entries⟩ := recorded
  rw [found] at found'
  cases found'
  obtain ⟨xoffset, hasOffset, made⟩ := Option.bind_eq_some_iff.mp made
  obtain ⟨d0, _, made⟩ := Option.bind_eq_some_iff.mp made
  obtain ⟨dx, hasDX, made⟩ := Option.bind_eq_some_iff.mp made
  obtain ⟨dy, hasDY, made⟩ := Option.bind_eq_some_iff.mp made
  have offset : xoffset = own.xoffset :=
    Option.some.inj (hasOffset.symm.trans (get_geo_of_valid _ GeoInfo.xoffset _ _ own checked listed))
  have width : dx = used.dx := Option.some.inj (hasDX.symm.trans (get_geo_of_valid _ GeoInfo.dx _ _ used usedChecked usedListed))
  have height : dy = used.dy := Option.some.inj (hasDY.symm.trans (get_geo_of_valid _ GeoInfo.dy _ _ used usedChecked usedListed))
  have thousand : (1.0e3 : ℝ) = 1000 := by norm_num
  subst offset width height
  cases made
  rw [← thousand]
  exact ⟨entries 9 _ rfl, entries 10 _ rfl⟩

-- One plane with a module of one metre and one of half a metre beside it.
def unequalInfo : GeneralInfo := ⟨1, 1, [2], 128, 3⟩

noncomputable def wideModule : GeoInfo ℝ := ⟨0, 0, 1, 1, 1, 1⟩

noncomputable def narrowModule : GeoInfo ℝ := ⟨0, 1, 0.5, 0.5, 1, 1⟩

noncomputable def unequalGeo (_ j : Int) : Option (GeoInfo ℝ) := some (if j = 0 then wideModule else narrowModule)

theorem unequal_loads :
    ∃ general m : DBManager ℝ, DBManager.loadGeneralInfo unequalInfo = some general ∧ general.loadGeoInfo unequalGeo = some m ∧
      m.fg4sbsDetectorType = 3 ∧ m.PositiveSizes ∧ m.geoInfo 0 1 = some narrowModule ∧ m.geoInfo 0 0 = some wideModule ∧
      m.getModuleIDFromPos 0 1 = some 1 ∧ m.checkIndex 0 0 = some true ∧ m.checkIndex 0 1 = some true := by
  refine ⟨_, _, rfl, rfl, rfl, ?_, rfl, rfl, ?_, rfl, rfl⟩
  · intro i j record listed
    change ((Function.update (Function.update (fun _ => none) (0 : Int) (some [])) 0 (some [wideModule, narrowModule]) i).getD
      [])[j.toNat]? = some record at listed
    by_cases plane : i = 0
    · rw [plane, Function.update_self, Option.getD_some] at listed
      have either : record = wideModule ∨ record = narrowModule := by simpa using List.mem_of_getElem? listed
      cases either with
      | inl wide => norm_num [wide, wideModule]
      | inr narrow => norm_num [narrow, narrowModule]
    · rw [Function.update_of_ne plane, Function.update_of_ne plane] at listed
      cases listed
  · change some (if (1 : ℝ) - 0.5 / 2.0 ≤ 1 ∧ (1 : ℝ) ≤ 1 + 0.5 / 2.0 then (1 : Int) else
      if (0 : ℝ) - 1 / 2.0 ≤ 1 ∧ (1 : ℝ) ≤ 0 + 1 / 2.0 then (0 : Int) else -1) = _
    norm_num

-- A hit in the narrow module that leaves it 400 mm from its middle.
noncomputable def slantedHit : RawHit ℝ := ⟨1, 1, 0, 11, 1, 1, 0, 0, 1, 0, 0, 1, 0, 0, 1.4, 0, 0, 0, 0, 0⟩

noncomputable def slantedTree : G4SBSTree ℝ := { ftTree 1 with Harm_FT := ⟨[slantedHit], []⟩ }

theorem slanted_event_read :
    ∃ (general m : DBManager ℝ) (g g' : Geant4File ℝ) (unwritten : Unwritten ℝ),
      DBManager.loadGeneralInfo unequalInfo = some general ∧ general.loadGeoInfo unequalGeo = some m ∧ m.PositiveSizes ∧
      m.geoInfo 0 1 = some narrowModule ∧ m.geoInfo 0 0 = some wideModule ∧ m.checkIndex 0 0 = some true ∧
      m.checkIndex 0 1 = some true ∧ m.fg4sbsDetectorType = 3 ∧ ValidModule m slantedHit 1 ∧ g.fManager = m ∧
      g.readNextEvent unwritten (some slantedTree) = some g' := by
  obtain ⟨general, m, loadedInfo, loadedGeo, detector, sizes, narrow, wide, found, checked, checked'⟩ := unequal_loads
  let g : Geant4File ℝ := ⟨m, 0, 0, 0, [], []⟩
  let unwritten : Unwritten ℝ := ⟨fun _ _ => 0, fun _ => 0, 0⟩
  obtain ⟨g', read⟩ := Geant4File.next_event_total unequalInfo m (loaded_of_load _ _ general m loadedInfo loadedGeo)
    (by decide) g rfl unwritten slantedTree (.inr (.inl detector)) (fun other => absurd (detector.symm.trans other) (by decide))
  exact ⟨general, m, g, g', unwritten, loadedInfo, loadedGeo, sizes, narrow, wide, checked, checked', detector,
    ⟨found, by decide, by decide⟩, rfl, read⟩

end Solgem
