import Solgem.GEMNumbering

set_option autoImplicit false

namespace Solgem

variable {F : Type}

-- The module numbers the planes have, and the index that only fNChamber lets
-- through.
structure InTables (info : GeneralInfo) (i j : Int) : Prop where
  plane : 0 ≤ i ∧ i < info.nplane
  module : 0 ≤ j ∧ ∃ count, info.nmodule[i.toNat]? = some count ∧ j < count

def PastPlanes (info : GeneralInfo) (i : Int) : Prop := info.nplane ≤ i ∧ i < info.nchamber

structure InRange (info : GeneralInfo) (nreadout i j k : Int) : Prop where
  tables : InTables info i j
  readout : 0 ≤ k ∧ k < nreadout

theorem check_index_tables (info : GeneralInfo) (m : DBManager F) (loaded : Loaded info m)
    (planes : info.nplane = info.nmodule.length) (i j : Int) :
    (m.checkIndex i j = none ∧ PastPlanes info i) ∨ (m.checkIndex i j = some false ∧ ¬ PastPlanes info i) ∨
      (m.checkIndex i j = some true ∧ ¬ PastPlanes info i ∧ InTables info i j) := by
  rw [PastPlanes, planes]
  obtain fault | invalid | valid := check_index_cases info m loaded i j
  · exact .inl fault
  · exact .inr (.inl invalid)
  · obtain ⟨passed, low, high, count, entry, first, below⟩ := valid
    exact .inr (.inr ⟨passed, by omega, ⟨⟨low, by omega⟩, first, count, entry, below⟩⟩)

theorem record_in_tables (info : GeneralInfo) (m : DBManager F) (loaded : Loaded info m) (i j : Int)
    (inside : InTables info i j) : ∃ record, m.geoInfo i j = some record := by
  obtain ⟨low, count, entry, below⟩ := inside.module
  exact geo_info_counted info m loaded i j count inside.plane.1 entry low below

-- GeoInfo with the strip angles as well.
structure StripGeoInfo (F : Type) extends GeoInfo F where
  stripangle_u : F
  stripangle_v : F

-- The manager with fNReadOut, and with its geometry records in full.
structure StripManager (F : Type) extends DBManager F where
  fNReadOut : Int
  fStripGeoInfo : Int → Option (List (StripGeoInfo F))
  records : ∀ i, fPMGeoInfo i = (fStripGeoInfo i).map (List.map StripGeoInfo.toGeoInfo)

inductive InvalidID where
  | chamber
  | module
  | readout
deriving DecidableEq

namespace StripManager

-- CheckIndex with all three indices: what it returns and which message it
-- prints. The test of the readout index does not return false.
def checkIndices (m : StripManager F) (i j k : Int) : Option (Bool × Option InvalidID) :=
  if m.fNChamber ≤ i ∨ i < 0 then some (false, some .chamber)
  else
    (m.fNModule[i.toNat]?).map (fun nmodule =>
      if nmodule ≤ j ∨ j < 0 then (false, some .module)
      else if m.fNReadOut ≤ k ∨ k < 0 then (true, some .readout)
      else (true, none))

def stripGeoInfo (m : StripManager F) (i j : Int) : Option (StripGeoInfo F) := ((m.fStripGeoInfo i).getD [])[j.toNat]?

-- Both axes get the angle of the first one.
def getStripAngle [Arith F] (m : StripManager F) (i j k : Int) : Option F :=
  (m.checkIndices i j k).bind (fun checked =>
    if checked.1 then
      (m.stripGeoInfo i j).map (fun geo => if k = 0 then geo.stripangle_u else geo.stripangle_u)
    else some (Arith.ofInt fErrVal))

theorem strip_record (m : StripManager F) (i j : Int) : m.geoInfo i j = (m.stripGeoInfo i j).map StripGeoInfo.toGeoInfo := by
  rw [DBManager.geoInfo, m.records i, stripGeoInfo]
  cases m.fStripGeoInfo i with
  | none => rfl
  | some geos => exact List.getElem?_map

-- The two checks agree: the third index changes the message at most.
theorem check_indices_result (m : StripManager F) (i j k : Int) :
    (m.checkIndices i j k).map Prod.fst = m.checkIndex i j := by
  rw [checkIndices, DBManager.checkIndex]
  split
  · rfl
  · rw [Option.map_map]
    congr 1
    funext nmodule
    by_cases missing : nmodule ≤ j ∨ j < 0
    · simp [missing]
    · by_cases readout : m.fNReadOut ≤ k ∨ k < 0
      · simp [missing, readout]
      · simp [missing, readout]

end StripManager

-- The strip position GetPosFromModuleStrip works out from a record.
def stripPosition [Arith F] (iproj istrip : Int) (geo : GeoInfo F) : F :=
  if iproj = 0 then geo.pitch_u * Arith.ofInt istrip - geo.dx / 2.0 + geo.xoffset
  else if iproj = 1 then geo.pitch_v * Arith.ofInt istrip - geo.dy / 2.0
  else Arith.ofInt fErrVal

-- A getter returns the error value, or what it reads from an existing record.
def ErrorOrRecord [Arith F] {R : Type} (record : Option R) (result : Option F) (read : R → F) : Prop :=
  result = some (Arith.ofInt fErrVal) ∨ ∃ geo, record = some geo ∧ result = some (read geo)

structure GettersInRange [Arith F] (m : StripManager F) (i j k : Int) : Prop where
  d0 : ErrorOrRecord (m.geoInfo i j) (m.getD0 i j) GeoInfo.d0
  xoffset : ErrorOrRecord (m.geoInfo i j) (m.getXOffset i j) GeoInfo.xoffset
  dx : ErrorOrRecord (m.geoInfo i j) (m.getDX i j) GeoInfo.dx
  dy : ErrorOrRecord (m.geoInfo i j) (m.getDY i j) GeoInfo.dy
  stripAngle : ErrorOrRecord (m.stripGeoInfo i j) (m.getStripAngle i j k) StripGeoInfo.stripangle_u
  position : ∀ iproj istrip, ErrorOrRecord (m.geoInfo i j) (m.getPosFromModuleStrip iproj i j istrip) (stripPosition iproj istrip)
  module : ∀ x, m.getModuleIDFromPos i x = some fErrVal ∨ m.getModuleIDFromPos i x = some (-1) ∨
    ∃ module geo, m.getModuleIDFromPos i x = some module ∧ m.geoInfo i module = some geo

-- What the lookups rely on: the check does not leave its table and lets only
-- indices in range through, and every getter is safe behind it.
structure LookupsInRange [Arith F] (info : GeneralInfo) (m : StripManager F) (i j k : Int) : Prop where
  answers : (m.checkIndices i j k).isSome = true
  sound : ∀ message, m.checkIndices i j k = some (true, message) → InRange info m.fNReadOut i j k
  getters : GettersInRange m i j k

section
variable [Arith F] (info : GeneralInfo) (m : StripManager F) (loaded : Loaded info m.toDBManager)
  (planes : info.nplane = info.nmodule.length)
include loaded planes

-- A lookup that is checked first, when the check has an answer and a valid
-- index has a record.
omit loaded planes in
theorem checked_lookup {R : Type} (checked : Option Bool) (record : Option R) (read : R → F)
    (safe : checked = some false ∨ (checked = some true ∧ ∃ geo, record = some geo)) :
    ErrorOrRecord record
      (checked.bind (fun valid => if valid then record.map read else some (Arith.ofInt fErrVal))) read := by
  cases safe with
  | inl invalid =>
      rw [invalid]
      exact .inl rfl
  | inr valid =>
      obtain ⟨passed, geo, found⟩ := valid
      rw [passed, found]
      exact .inr ⟨geo, rfl, rfl⟩

omit [Arith F] in
theorem check_index_safe (i j : Int) (inside : ¬ PastPlanes info i) :
    m.checkIndex i j = some false ∨ (m.checkIndex i j = some true ∧ ∃ geo, m.geoInfo i j = some geo) := by
  obtain past | invalid | valid := check_index_tables info m.toDBManager loaded planes i j
  · exact absurd past.2 inside
  · exact .inl invalid.1
  · exact .inr ⟨valid.1, record_in_tables info m.toDBManager loaded i j valid.2.2⟩

theorem strip_angle_safe (i j k : Int) (inside : ¬ PastPlanes info i) :
    ErrorOrRecord (m.stripGeoInfo i j) (m.getStripAngle i j k) StripGeoInfo.stripangle_u := by
  have safe := check_index_safe info m loaded planes i j inside
  have result := m.check_indices_result i j k
  have lookup : m.getStripAngle i j k = (m.checkIndex i j).bind (fun valid =>
      if valid then (m.stripGeoInfo i j).map StripGeoInfo.stripangle_u else some (Arith.ofInt fErrVal)) := by
    rw [StripManager.getStripAngle, ← result, Option.bind_map]
    simp only [ite_self]
    rfl
  rw [lookup]
  refine checked_lookup _ _ _ (safe.imp_right fun valid => ⟨valid.1, ?_⟩)
  obtain ⟨geo, found⟩ := valid.2
  rw [m.strip_record] at found
  obtain ⟨full, listed, _⟩ := Option.map_eq_some_iff.mp found
  exact ⟨full, listed⟩

theorem position_safe (i j iproj istrip : Int) (inside : ¬ PastPlanes info i) :
    ErrorOrRecord (m.geoInfo i j) (m.getPosFromModuleStrip iproj i j istrip) (stripPosition iproj istrip) := by
  cases check_index_safe info m loaded planes i j inside with
  | inl invalid =>
      rw [DBManager.getPosFromModuleStrip, invalid]
      exact .inl rfl
  | inr valid =>
      obtain ⟨passed, geo, found⟩ := valid
      refine .inr ⟨geo, found, ?_⟩
      rw [DBManager.getPosFromModuleStrip, passed, found, Option.bind_some, if_pos rfl, stripPosition]
      by_cases first : iproj = 0
      · rw [if_pos first, if_pos first]
        rfl
      · rw [if_neg first, if_neg first]
        by_cases second : iproj = 1
        · rw [if_pos second, if_pos second]
          rfl
        · rw [if_neg second, if_neg second]

theorem module_safe (i : Int) (x : F) (inside : ¬ PastPlanes info i) :
    m.getModuleIDFromPos i x = some fErrVal ∨ m.getModuleIDFromPos i x = some (-1) ∨
      ∃ module geo, m.getModuleIDFromPos i x = some module ∧ m.geoInfo i module = some geo := by
  have returns : ∃ module, m.getModuleIDFromPos i x = some module := by
    rw [DBManager.getModuleIDFromPos]
    cases check_index_safe info m loaded planes i 0 inside with
    | inl invalid => exact ⟨_, by rw [invalid]; rfl⟩
    | inr valid => exact ⟨_, by rw [valid.1]; rfl⟩
  obtain ⟨module, found⟩ := returns
  obtain failed | unlisted | located := module_from_pos info m.toDBManager loaded i x module found
  · exact .inl (failed ▸ found)
  · exact .inr (.inl (unlisted ▸ found))
  · obtain ⟨geo, listed, _⟩ := located.spans
    exact .inr (.inr ⟨module, geo, found, listed⟩)

theorem getters_behind_check (i j k : Int) (inside : ¬ PastPlanes info i) : GettersInRange m i j k where
  d0 := checked_lookup _ _ _ (check_index_safe info m loaded planes i j inside)
  xoffset := checked_lookup _ _ _ (check_index_safe info m loaded planes i j inside)
  dx := checked_lookup _ _ _ (check_index_safe info m loaded planes i j inside)
  dy := checked_lookup _ _ _ (check_index_safe info m loaded planes i j inside)
  stripAngle := strip_angle_safe info m loaded planes i j k inside
  position iproj istrip := position_safe info m loaded planes i j iproj istrip inside
  module x := module_safe info m loaded planes i x inside

omit [Arith F] in
theorem check_indices_valid (i j k : Int) (message : Option InvalidID) (checked : m.checkIndices i j k = some (true, message)) :
    i < info.nchamber ∧ InTables info i j := by
  have result := m.check_indices_result i j k
  rw [checked] at result
  have limit := loaded.chambers
  obtain past | invalid | valid := check_index_tables info m.toDBManager loaded planes i j
  · rw [past.1] at result
    cases result
  · rw [invalid.1] at result
    cases result
  · refine ⟨?_, valid.2.2⟩
    have below := valid.2.2.plane.2
    by_contra above
    have rejected : m.checkIndex i j = some false := if_pos (.inl (by omega))
    rw [rejected] at result
    cases result

-- The check stays in its table unless the index is past the planes, and what
-- it lets through is in range unless the readout index is not.
theorem lookups_in_range_iff (i j k : Int) :
    LookupsInRange info m i j k ↔
      ¬ PastPlanes info i ∧ (i < info.nchamber → InTables info i j → 0 ≤ k ∧ k < m.fNReadOut) := by
  have result := m.check_indices_result i j k
  have limit := loaded.chambers
  constructor
  · intro lookups
    obtain ⟨checked, returned⟩ := Option.isSome_iff_exists.mp lookups.answers
    rw [returned] at result
    refine ⟨fun past => ?_, fun chamber tables => ?_⟩
    · obtain fault | invalid | valid := check_index_tables info m.toDBManager loaded planes i j
      · rw [fault.1] at result
        cases result
      · exact invalid.2 past
      · exact valid.2.1 past
    · obtain ⟨low, count, entry, below⟩ := tables.module
      have inside : ¬ (m.fNChamber ≤ i ∨ i < 0) := by
        have := tables.plane
        omega
      have listed : ¬ (count ≤ j ∨ j < 0) := by omega
      have passed : ∃ message, m.checkIndices i j k = some (true, message) := by
        rw [StripManager.checkIndices, if_neg inside, loaded.counts, entry, Option.map_some, if_neg listed]
        by_cases readout : m.fNReadOut ≤ k ∨ k < 0
        · exact ⟨_, by rw [if_pos readout]⟩
        · exact ⟨_, by rw [if_neg readout]⟩
      obtain ⟨message, passed⟩ := passed
      exact (lookups.sound message passed).readout
  · intro condition
    refine ⟨?_, fun message passed => ?_, getters_behind_check info m loaded planes i j k condition.1⟩
    · rw [← Option.isSome_map, result]
      cases check_index_safe info m loaded planes i j condition.1 with
      | inl invalid => rw [invalid]; rfl
      | inr valid => rw [valid.1]; rfl
    · obtain ⟨chamber, tables⟩ := check_indices_valid info m loaded planes i j k message passed
      exact ⟨tables, condition.2 chamber tables⟩

end

theorem general_info_planes (info : GeneralInfo) (m : DBManager F) (loaded : DBManager.loadGeneralInfo info = some m) :
    info.nplane = info.nmodule.length := by
  by_contra other
  rw [DBManager.loadGeneralInfo, if_neg other] at loaded
  cases loaded

theorem lookups_in_range_exactly [Arith F] (info : GeneralInfo) (geo : Int → Int → Option (GeoInfo F))
    (general : DBManager F) (m : StripManager F) (loadedInfo : DBManager.loadGeneralInfo info = some general)
    (loadedGeo : general.loadGeoInfo geo = some m.toDBManager) (i j k : Int) :
    LookupsInRange info m i j k ↔
      ¬ PastPlanes info i ∧ (i < info.nchamber → InTables info i j → 0 ≤ k ∧ k < m.fNReadOut) :=
  lookups_in_range_iff info m (loaded_of_load info geo general m.toDBManager loadedInfo loadedGeo)
    (general_info_planes info general loadedInfo) i j k

-- The records of a manager, with strip angles of zero.
def DBManager.withoutAngles [Arith F] (m : DBManager F) (fNReadOut : Int) : StripManager F :=
  { m with
    fNReadOut := fNReadOut
    fStripGeoInfo := fun i => (m.fPMGeoInfo i).map (List.map fun geo => ⟨geo, 0.0, 0.0⟩)
    records := by
      intro i
      cases m.fPMGeoInfo i with
      | none => rfl
      | some geos => simp [List.map_map, Function.comp_def] }

-- Two chambers, but the modules of one plane.
def chambersInfo : GeneralInfo := ⟨2, 1, [1], 128, 3⟩

theorem chambers_load :
    ∃ general m : DBManager ℝ, DBManager.loadGeneralInfo chambersInfo = some general ∧
      general.loadGeoInfo (fun _ _ => some ⟨0, 0, 1, 1, 1, 1⟩) = some m :=
  ⟨_, _, rfl, rfl⟩

theorem lookups_in_first_plane :
    ∃ m : StripManager ℝ, LookupsInRange chambersInfo m 0 0 1 ↔
      ¬ PastPlanes chambersInfo 0 ∧ (0 < chambersInfo.nchamber → InTables chambersInfo 0 0 → (0 : Int) ≤ 1 ∧ 1 < m.fNReadOut) := by
  obtain ⟨general, m, loadedInfo, loadedGeo⟩ := chambers_load
  exact ⟨m.withoutAngles 2, lookups_in_range_exactly chambersInfo _ general (m.withoutAngles 2) loadedInfo loadedGeo 0 0 1⟩

-- Chamber 1 is let through to a module count that is not there, and readout 5
-- of 2 is valid.
theorem chamber_without_plane :
    ∃ (general : DBManager ℝ) (m : StripManager ℝ), DBManager.loadGeneralInfo chambersInfo = some general ∧
      general.loadGeoInfo (fun _ _ => some ⟨0, 0, 1, 1, 1, 1⟩) = some m.toDBManager ∧ m.fNReadOut = 2 ∧
      m.checkIndices 1 0 0 = none ∧ m.checkIndices 0 0 5 = some (true, some .readout) ∧
      ¬ LookupsInRange chambersInfo m 1 0 0 ∧ ¬ LookupsInRange chambersInfo m 0 0 5 := by
  obtain ⟨general, m, loadedInfo, loadedGeo⟩ := chambers_load
  have loaded := loaded_of_load chambersInfo _ general m loadedInfo loadedGeo
  let strips := m.withoutAngles 2
  have fault : strips.checkIndices 1 0 0 = none := by
    have inside : ¬ (strips.fNChamber ≤ 1 ∨ (1 : Int) < 0) := by
      change ¬ (m.fNChamber ≤ 1 ∨ (1 : Int) < 0)
      rw [loaded.chambers]
      decide
    have counts : strips.fNModule = [1] := loaded.counts
    rw [StripManager.checkIndices, if_neg inside, counts]
    rfl
  have passed : strips.checkIndices 0 0 5 = some (true, some .readout) := by
    have inside : ¬ (strips.fNChamber ≤ 0 ∨ (0 : Int) < 0) := by
      change ¬ (m.fNChamber ≤ 0 ∨ (0 : Int) < 0)
      rw [loaded.chambers]
      decide
    have counts : strips.fNModule = [1] := loaded.counts
    rw [StripManager.checkIndices, if_neg inside, counts]
    rfl
  refine ⟨general, strips, loadedInfo, loadedGeo, rfl, fault, passed, fun lookups => ?_, fun lookups => ?_⟩
  · have answers := lookups.answers
    rw [fault] at answers
    cases answers
  · have readout : (5 : Int) < 2 := (lookups.sound _ passed).readout.2
    exact absurd readout (by decide)

end Solgem
