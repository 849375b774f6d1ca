import Solgem.GEMNumbering
import Solgem.Geant4File
import Solgem.Lib.Runs

set_option autoImplicit false

namespace Solgem

open Lib

variable {F : Type} [Arith F]

namespace Geant4File

def hitColumns (detector : Int) (tree : G4SBSTree F) : List (RawHit F) :=
  if detector = 1 then tree.Earm_BBGEM.hit
  else if detector = 3 then tree.Harm_FT.hit
  else if detector = 4 then tree.Harm_FPP1.hit
  else if detector = 5 then tree.Harm_FPP2.hit
  else []

-- Only case 1 leaves out a hit, when no module of a valid plane spans it.
def Skips (m : DBManager F) (testsModule : Bool) (h : RawHit F) : Prop :=
  testsModule = true ∧ m.getModuleIDFromPos (h.plane - 1) h.tx = some (-1)

def Recorded (g : Geant4File F) (block : HitBlock F) (h : RawHit F) (record : G4SBSHitData F) : Prop :=
  ∃ module values, g.fManager.getModuleIDFromPos (h.plane - 1) h.tx = some module ∧
    g.hitDataTemp block h (h.plane - 1) module = some values ∧
    ∀ (idx : Nat) (data : F), values[idx]? = some data → record.getData idx = data

theorem hit_data_temp_length (g : Geant4File F) (block : HitBlock F) (h : RawHit F) (plane module : Int) (values : List F)
    (made : g.hitDataTemp block h plane module = some values) : values.length = 24 := by
  obtain ⟨xoffset, _, made⟩ := Option.bind_eq_some_iff.mp made
  obtain ⟨d0, _, made⟩ := Option.bind_eq_some_iff.mp made
  obtain ⟨dx, _, made⟩ := Option.bind_eq_some_iff.mp made
  obtain ⟨dy, _, made⟩ := Option.bind_eq_some_iff.mp made
  cases made
  rfl

theorem read_hit_recorded (g : Geant4File F) (memory : Nat → Nat → F) (block : HitBlock F)
    (stored stored' : List (G4SBSHitData F)) (h : RawHit F) (read : g.readHit memory block stored h = some stored') :
    (Skips g.fManager block.testsModule h ∧ stored' = stored) ∨
      (¬ Skips g.fManager block.testsModule h ∧ ∃ record, stored' = stored ++ [record] ∧ Recorded g block h record) := by
  obtain ⟨module, found, read⟩ := Option.bind_eq_some_iff.mp read
  by_cases skipped : block.testsModule ∧ module = -1
  · rw [if_pos skipped] at read
    cases read
    exact .inl ⟨⟨skipped.1, by rw [found, skipped.2]⟩, rfl⟩
  · rw [if_neg skipped] at read
    obtain ⟨values, made, read⟩ := Option.bind_eq_some_iff.mp read
    obtain ⟨record, allocated, read⟩ := Option.bind_eq_some_iff.mp read
    cases read
    refine .inr ⟨fun skips => skipped ⟨skips.1, ?_⟩, _, rfl, module, values, found, made, fun idx data listed => ?_⟩
    · exact Option.some.inj (found.symm.trans skips.2)
    · have size : record.fSize = 24 := by
        rw [G4SBSHitData.new, if_neg (by decide)] at allocated
        cases allocated
        rfl
      refine G4SBSHitData.set_all_get record values ?_ idx data listed
      rw [size, hit_data_temp_length g block h (h.plane - 1) module values made]

open Classical in
theorem read_hits_recorded (g : Geant4File F) (memory : Nat → Nat → F) (block : HitBlock F) (hits : List (RawHit F))
    (stored : List (G4SBSHitData F)) (read : g.readHits memory block hits = some stored) :
    List.Forall₂ (Recorded g block) (hits.filter (fun h => ¬ Skips g.fManager block.testsModule h)) stored := by
  have loop := run_invariant (fun stored h stored' => g.readHit memory block stored h = some stored')
    (fun past stored => List.Forall₂ (Recorded g block) (past.filter (fun h => ¬ Skips g.fManager block.testsModule h)) stored)
    ?_ [] hits [] stored ((foldlM_run _ _ _ _).mp read) List.Forall₂.nil
  · simpa only [List.nil_append] using loop
  · intro past h stored stored' kept pass
    rw [List.filter_append]
    rcases read_hit_recorded g memory block stored stored' h pass with ⟨skips, rfl⟩ | ⟨keeps, record, rfl, recorded⟩
    · rw [List.filter_singleton, decide_eq_false (fun keeps => keeps skips)]
      simpa using kept
    · rw [List.filter_singleton, decide_eq_true keeps]
      exact List.rel_append kept (List.Forall₂.cons recorded List.Forall₂.nil)

theorem read_hits_one (g : Geant4File F) (memory : Nat → Nat → F) (block : HitBlock F) (h : RawHit F)
    (stored : List (G4SBSHitData F)) (read : g.readHits memory block [h] = some stored)
    (kept : ¬ Skips g.fManager block.testsModule h) : ∃ record, stored = [record] ∧ Recorded g block h record := by
  cases read_hit_recorded g memory block [] _ h (by simpa [readHits] using read) with
  | inl skipped => exact absurd skipped.1 kept
  | inr made =>
      obtain ⟨_, record, single, recorded⟩ := made
      exact ⟨record, single, recorded⟩

theorem next_event_hits (g g' : Geant4File F) (unwritten : Unwritten F) (tree : G4SBSTree F)
    (read : g.readNextEvent unwritten (some tree) = some g') :
    g'.fManager = g.fManager ∧ ∃ (cleared : Geant4File F) (block : HitBlock F), cleared.fManager = g.fManager ∧
      (block.testsModule = true ↔ g.fManager.fg4sbsDetectorType = 1) ∧
      (∀ module, block.side module = if g.fManager.fg4sbsDetectorType = 1 then module else 0) ∧
      cleared.readHits unwritten.hitData block (hitColumns g.fManager.fg4sbsDetectorType tree) = some g'.fg4sbsHitData := by
  rw [readNextEvent] at read
  rw [hitColumns]
  by_cases bbgem : g.fManager.fg4sbsDetectorType = 1
  · rw [if_pos bbgem] at read ⊢
    obtain ⟨hits, stored, rest⟩ := Option.bind_eq_some_iff.mp read
    obtain ⟨tracks, _, result⟩ := Option.bind_eq_some_iff.mp rest
    cases result
    exact ⟨rfl, _, bbgemBlock, rfl, ⟨fun _ => bbgem, fun _ => rfl⟩, fun _ => (if_pos bbgem).symm, stored⟩
  · have beside : ∀ module : Int, 0 = if g.fManager.fg4sbsDetectorType = 1 then module else 0 := fun _ => (if_neg bbgem).symm
    have other : false = true ↔ g.fManager.fg4sbsDetectorType = 1 :=
      ⟨fun tests => absurd tests Bool.false_ne_true, fun first => absurd first bbgem⟩
    rw [if_neg bbgem] at read ⊢
    by_cases ft : g.fManager.fg4sbsDetectorType = 3
    · rw [if_pos ft] at read ⊢
      obtain ⟨hits, stored, rest⟩ := Option.bind_eq_some_iff.mp read
      obtain ⟨tracks, _, result⟩ := Option.bind_eq_some_iff.mp rest
      cases result
      exact ⟨rfl, _, ftBlock _, rfl, other, beside, stored⟩
    · rw [if_neg ft] at read ⊢
      by_cases fpp1 : g.fManager.fg4sbsDetectorType = 4
      · rw [if_pos fpp1] at read ⊢
        obtain ⟨tracks, _, rest⟩ := Option.bind_eq_some_iff.mp read
        obtain ⟨hits, stored, result⟩ := Option.bind_eq_some_iff.mp rest
        cases result
        exact ⟨rfl, _, fppBlock _ _ _, rfl, other, beside, stored⟩
      · rw [if_neg fpp1] at read ⊢
        by_cases fpp2 : g.fManager.fg4sbsDetectorType = 5
        · rw [if_pos fpp2] at read ⊢
          obtain ⟨chosen, _, rest⟩ := Option.bind_eq_some_iff.mp read
          obtain ⟨tracks, _, rest⟩ := Option.bind_eq_some_iff.mp rest
          obtain ⟨hits, stored, result⟩ := Option.bind_eq_some_iff.mp rest
          cases result
          exact ⟨rfl, _, fppBlock _ _ _, rfl, other, beside, stored⟩
        · rw [if_neg fpp2] at read
          cases read

theorem recorded_numbers (g : Geant4File F) (block : HitBlock F) (h : RawHit F) (record : G4SBSHitData F)
    (recorded : Recorded g block h record) :
    ∃ module, g.fManager.getModuleIDFromPos (h.plane - 1) h.tx = some module ∧
      record.getData 0 = Arith.ofInt (h.plane - 1) ∧ record.getData 1 = h.edep * 1.0e3 ∧
      record.getData 19 = Arith.ofInt module := by
  obtain ⟨module, values, found, made, entries⟩ := recorded
  obtain ⟨xoffset, _, made⟩ := Option.bind_eq_some_iff.mp made
  obtain ⟨d0, _, made⟩ := Option.bind_eq_some_iff.mp made
  obtain ⟨dx, _, made⟩ := Option.bind_eq_some_iff.mp made
  obtain ⟨dy, _, made⟩ := Option.bind_eq_some_iff.mp made
  cases made
  exact ⟨module, found, entries 0 _ rfl, entries 1 _ rfl, entries 19 _ rfl⟩

theorem gem_hit_numbers (m : DBManager F) (record : G4SBSHitData F) (plane module : Int)
    (planeNumber : record.getData 0 = Arith.ofInt plane) (moduleNumber : record.getData 19 = Arith.ofInt module)
    (planeFits : -2147483648 ≤ plane ∧ plane ≤ 2147483647) (moduleFits : -2147483648 ≤ module ∧ module ≤ 2147483647) :
    (gemHit m record).fPlane = toUInt32 plane ∧ (gemHit m record).fModule = toUInt32 module ∧
      (gemHit m record).fGem = toUInt32 (m.getGEMID plane module) := by
  have planeBack := Arith.trunc_ofInt (F := F) plane planeFits.1 planeFits.2
  have moduleBack := Arith.trunc_ofInt (F := F) module moduleFits.1 moduleFits.2
  simp only [gemHit, planeNumber, moduleNumber, planeBack, moduleBack]
  exact ⟨trivial, trivial, trivial⟩

end Geant4File

section
variable (info : GeneralInfo) (m : DBManager F) (loaded : Loaded info m) (chambers : info.nchamber ≤ info.nmodule.length)
include loaded chambers

-- With a plane for every chamber the lookups never leave their tables.
omit [Arith F] in
theorem check_index_total (i j : Int) :
    m.checkIndex i j = some false ∨ (m.checkIndex i j = some true ∧ ∃ record, m.geoInfo i j = some record) := by
  obtain fault | invalid | valid := check_index_cases info m loaded i j
  · omega
  · exact .inl invalid.1
  · obtain ⟨passed, plane, _, count, listed, low, below⟩ := valid
    exact .inr ⟨passed, geo_info_counted info m loaded i j count plane listed low below⟩

theorem get_geo_total (field : GeoInfo F → F) (i j : Int) : ∃ value, m.getGeo field i j = some value := by
  rw [DBManager.getGeo]
  cases check_index_total info m loaded chambers i j with
  | inl missing =>
      rw [missing]
      exact ⟨Arith.ofInt fErrVal, rfl⟩
  | inr valid =>
      obtain ⟨passed, record, found⟩ := valid
      rw [passed, found]
      exact ⟨field record, rfl⟩

theorem module_from_pos_total (iplane : Int) (x : F) : ∃ module, m.getModuleIDFromPos iplane x = some module := by
  rw [DBManager.getModuleIDFromPos]
  cases check_index_total info m loaded chambers iplane 0 with
  | inl missing =>
      rw [missing]
      exact ⟨_, rfl⟩
  | inr valid =>
      rw [valid.1]
      exact ⟨_, rfl⟩

namespace Geant4File

theorem read_hits_total (g : Geant4File F) (manager : g.fManager = m) (memory : Nat → Nat → F) (block : HitBlock F)
    (hits : List (RawHit F)) : ∃ stored, g.readHits memory block hits = some stored := by
  have step : ∀ (past : List (RawHit F)) (h : RawHit F) (stored : List (G4SBSHitData F)), h ∈ hits → True →
      ∃ stored', g.readHit memory block stored h = some stored' ∧ True := by
    intro _ h stored _ _
    obtain ⟨module, found⟩ := module_from_pos_total info m loaded chambers (h.plane - 1) h.tx
    obtain ⟨xoffset, hasOffset⟩ := get_geo_total info m loaded chambers GeoInfo.xoffset (h.plane - 1) module
    obtain ⟨d0, hasD0⟩ := get_geo_total info m loaded chambers GeoInfo.d0 (h.plane - 1) module
    obtain ⟨dx, hasDX⟩ := get_geo_total info m loaded chambers GeoInfo.dx (h.plane - 1) (block.side module)
    obtain ⟨dy, hasDY⟩ := get_geo_total info m loaded chambers GeoInfo.dy (h.plane - 1) (block.side module)
    have made : ∃ values, g.hitDataTemp block h (h.plane - 1) module = some values := by
      rw [← manager] at hasOffset hasD0 hasDX hasDY
      refine ⟨_, Option.bind_eq_some_iff.mpr ⟨xoffset, hasOffset, Option.bind_eq_some_iff.mpr ⟨d0, hasD0,
        Option.bind_eq_some_iff.mpr ⟨dx, hasDX, Option.bind_eq_some_iff.mpr ⟨dy, hasDY, rfl⟩⟩⟩⟩⟩
    obtain ⟨values, made⟩ := made
    obtain ⟨record, allocated⟩ : ∃ record, G4SBSHitData.new (memory stored.length) block.det_id 24 = some record :=
      ⟨_, if_neg (by decide)⟩
    rw [← manager] at found
    by_cases skipped : block.testsModule ∧ module = -1
    · exact ⟨stored, Option.bind_eq_some_iff.mpr ⟨module, found, if_pos skipped⟩, trivial⟩
    · refine ⟨stored ++ [record.setAll values], Option.bind_eq_some_iff.mpr ⟨module, found, (if_neg skipped).trans ?_⟩, trivial⟩
      exact Option.bind_eq_some_iff.mpr ⟨values, made, Option.bind_eq_some_iff.mpr ⟨record, allocated, rfl⟩⟩
  obtain ⟨stored, run, _⟩ := run_total (fun stored h stored' => g.readHit memory block stored h = some stored')
    (fun _ _ => True) [] hits step [] trivial
  exact ⟨stored, (foldlM_run _ _ _ _).mpr run⟩

omit loaded chambers in
theorem read_track_total (g : Geant4File F) (memory : Nat → F) (tree : G4SBSTree F) (momentum : V3 F)
    (tracks : List (RawTrack F)) (wanted : RawTrack F → Bool) :
    ∃ records, g.readTrack memory tree momentum tracks wanted = some records := by
  cases tracks with
  | nil => exact ⟨[], rfl⟩
  | cons track _ =>
      by_cases found : g.fSource = 0 ∧ wanted track
      · exact ⟨_, if_pos found⟩
      · exact ⟨[], if_neg found⟩

omit loaded chambers in
-- The second polarimeter takes MID from a track of the first one.
theorem fpp2_primary_total (g : Geant4File F) (unwritten : Unwritten F) (tree : G4SBSTree F) (tracks : tree.Harm_FPP1.Track ≠ []) :
    ∃ primary, g.fpp2Primary unwritten tree = some primary := by
  rw [fpp2Primary]
  cases tree.Harm_FPP2.Track with
  | nil => exact ⟨_, rfl⟩
  | cons track _ =>
      dsimp only
      obtain ⟨head, rest, some_track⟩ := List.exists_cons_of_ne_nil tracks
      by_cases proton : g.fSource = 0 ∧ track.PID = 2212
      · rw [if_pos proton, some_track]
        exact ⟨_, rfl⟩
      · rw [if_neg proton]
        exact ⟨_, rfl⟩

theorem next_event_total (g : Geant4File F) (manager : g.fManager = m) (unwritten : Unwritten F) (tree : G4SBSTree F)
    (detector : m.fg4sbsDetectorType = 1 ∨ m.fg4sbsDetectorType = 3 ∨ m.fg4sbsDetectorType = 4 ∨ m.fg4sbsDetectorType = 5)
    (first : m.fg4sbsDetectorType = 5 → tree.Harm_FPP1.Track ≠ []) :
    ∃ g', g.readNextEvent unwritten (some tree) = some g' := by
  subst manager
  let cleared := { g with fg4sbsHitData := [], fg4sbsGenData := [], fEvNum := g.fEvNum + 1 }
  have hits : ∀ (block : HitBlock F) (columns : List (RawHit F)),
      ∃ stored, cleared.readHits unwritten.hitData block columns = some stored :=
    fun block columns => read_hits_total info _ loaded chambers cleared rfl unwritten.hitData block columns
  have tracks : ∀ (momentum : V3 F) (columns : List (RawTrack F)) (wanted : RawTrack F → Bool),
      ∃ records, cleared.readTrack unwritten.genData tree momentum columns wanted = some records :=
    fun momentum columns wanted => read_track_total cleared unwritten.genData tree momentum columns wanted
  rw [readNextEvent]
  rcases detector with type | type | type | type
  · obtain ⟨stored, read⟩ := hits bbgemBlock tree.Earm_BBGEM.hit
    obtain ⟨records, found⟩ := tracks tree.ev_ep tree.Earm_BBGEM.Track (fun track => track.MID = 0)
    refine ⟨{ cleared with fg4sbsHitData := stored, fg4sbsGenData := records }, ?_⟩
    rw [type]
    exact Option.bind_eq_some_iff.mpr ⟨stored, read, Option.bind_eq_some_iff.mpr ⟨records, found, rfl⟩⟩
  · obtain ⟨stored, read⟩ := hits cleared.ftBlock tree.Harm_FT.hit
    obtain ⟨records, found⟩ := tracks tree.ev_np tree.Harm_FT.Track (fun track => track.MID = 0)
    refine ⟨{ cleared with fg4sbsHitData := stored, fg4sbsGenData := records }, ?_⟩
    rw [type]
    exact Option.bind_eq_some_iff.mpr ⟨stored, read, Option.bind_eq_some_iff.mpr ⟨records, found, rfl⟩⟩
  · obtain ⟨records, found⟩ := tracks tree.ev_np tree.Harm_FPP1.Track (fun track => track.PID = 2212)
    let primary := cleared.fpp1Primary unwritten tree
    obtain ⟨stored, read⟩ := hits (cleared.fppBlock primary.1 primary.2) tree.Harm_FPP1.hit
    refine ⟨{ cleared with fg4sbsHitData := stored, fg4sbsGenData := records }, ?_⟩
    rw [type]
    exact Option.bind_eq_some_iff.mpr ⟨records, found, Option.bind_eq_some_iff.mpr ⟨stored, read, rfl⟩⟩
  · obtain ⟨primary, chosen⟩ := fpp2_primary_total cleared unwritten tree (first type)
    obtain ⟨records, found⟩ := tracks tree.ev_np tree.Harm_FPP2.Track (fun track => track.PID = 2212)
    obtain ⟨stored, read⟩ := hits (cleared.fppBlock primary.1 primary.2) tree.Harm_FPP2.hit
    refine ⟨{ cleared with fg4sbsHitData := stored, fg4sbsGenData := records }, ?_⟩
    rw [type]
    exact Option.bind_eq_some_iff.mpr ⟨primary, chosen,
      Option.bind_eq_some_iff.mpr ⟨records, found, Option.bind_eq_some_iff.mpr ⟨stored, read, rfl⟩⟩⟩

end Geant4File

end

structure GeneralInfo.Fits (info : GeneralInfo) : Prop where
  planes : info.nmodule.length ≤ 2147483647
  modules : (info.nmodule.map Int.toNat).sum ≤ 2147483647

theorem modules_before_bound (info : GeneralInfo) (i : Nat) (count : Int) (listed : info.nmodule[i]? = some count) :
    info.modulesBefore i + count.toNat ≤ (info.nmodule.map Int.toNat).sum := by
  obtain ⟨below, entry⟩ := List.getElem?_eq_some_iff.mp listed
  have split : info.modulesBefore i + (((info.nmodule.drop i).map Int.toNat).sum) = (info.nmodule.map Int.toNat).sum := by
    rw [GeneralInfo.modulesBefore, ← List.sum_append, ← List.map_append, List.take_append_drop]
  rw [List.drop_eq_getElem_cons below, entry, List.map_cons, List.sum_cons] at split
  omega

-- The plane and the module of a hit exist, and its chamber is theirs.
structure Belongs (info : GeneralInfo) (m : DBManager F) (hit : ReadGEMHit F) : Prop where
  present : ∃ count, info.nmodule[hit.fPlane]? = some count ∧ hit.fModule < count
  plane : m.getPlaneID hit.fGem = hit.fPlane
  module : m.getModuleID hit.fGem = hit.fModule

-- A hit handed on for a hit of the tree: it names the plane of that hit and a
-- module that its x lies in.
structure AttributedTo (info : GeneralInfo) (m : DBManager F) (h : RawHit F) (hit : ReadGEMHit F) : Prop where
  belongs : Belongs info m hit
  plane : (hit.fPlane : Int) = h.plane - 1
  module : InModule info m (h.plane - 1) h.tx hit.fModule

-- Every hit handed on stands, in order, for a hit of the tree that lies in a
-- module.
def ProperlyAttributed (info : GeneralInfo) (m : DBManager F) (columns : List (RawHit F)) (hits : List (ReadGEMHit F)) : Prop :=
  ∃ origin, origin.Sublist columns ∧ List.Forall₂ (AttributedTo info m) origin hits

-- The module lookup does not fail, or fails in the one way case 1 tests for.
def WellPlaced (m : DBManager F) (h : RawHit F) : Prop :=
  m.getModuleIDFromPos (h.plane - 1) h.tx ≠ some fErrVal ∧
    (m.fg4sbsDetectorType ≠ 1 → m.getModuleIDFromPos (h.plane - 1) h.tx ≠ some (-1))

theorem attributed_of_in_module (info : GeneralInfo) (fits : info.Fits) (m : DBManager F) (loaded : Loaded info m)
    (h : RawHit F) (record : G4SBSHitData F) (module : Int) (inside : InModule info m (h.plane - 1) h.tx module)
    (planeNumber : record.getData 0 = Arith.ofInt (h.plane - 1)) (moduleNumber : record.getData 19 = Arith.ofInt module) :
    AttributedTo info m h (Geant4File.gemHit m record) := by
  obtain ⟨⟨low, high⟩, ⟨moduleLow, count, listed, moduleHigh⟩, _⟩ := inside
  have planes := fits.planes
  have modules := fits.modules
  have bound := modules_before_bound info (h.plane - 1).toNat count listed
  obtain ⟨plane, moduleField, chamber⟩ := Geant4File.gem_hit_numbers m record (h.plane - 1) module planeNumber moduleNumber
    ⟨by omega, by omega⟩ ⟨by omega, by omega⟩
  obtain ⟨number, planeBack, moduleBack⟩ := loaded.number (h.plane - 1).toNat count module listed moduleLow moduleHigh
  have place : ((h.plane - 1).toNat : Int) = h.plane - 1 := Int.toNat_of_nonneg low
  rw [place] at number planeBack
  have planeExact := uint32_exact (h.plane - 1) low (by omega)
  have moduleExact := uint32_exact module moduleLow (by omega)
  have chamberExact := uint32_exact (info.modulesBefore (h.plane - 1).toNat + module) (by omega) (by omega)
  have chamberField : ((Geant4File.gemHit m record).fGem : Int) = info.modulesBefore (h.plane - 1).toNat + module := by
    rw [chamber, number, chamberExact]
  have planeInt : ((Geant4File.gemHit m record).fPlane : Int) = h.plane - 1 := by rw [plane, planeExact]
  have moduleInt : ((Geant4File.gemHit m record).fModule : Int) = module := by rw [moduleField, moduleExact]
  refine ⟨⟨⟨count, ?_, by omega⟩, ?_, ?_⟩, planeInt, ?_⟩
  · rw [show (Geant4File.gemHit m record).fPlane = (h.plane - 1).toNat by omega]
    exact listed
  · rw [chamberField, planeBack, planeInt]
  · rw [chamberField, moduleBack, moduleInt]
  · rw [moduleInt]
    exact ⟨⟨low, high⟩, ⟨moduleLow, count, listed, moduleHigh⟩, ‹_›⟩

theorem misplaced_hit (info : GeneralInfo) (fits : info.Fits) (m : DBManager F) (record : G4SBSHitData F) (module : Int)
    (failed : module = fErrVal ∨ module = -1) (moduleNumber : record.getData 19 = Arith.ofInt module) :
    ¬ Belongs info m (Geant4File.gemHit m record) := by
  rintro ⟨⟨count, listed, below⟩, _, _⟩
  have modules := fits.modules
  have bound := modules_before_bound info _ count listed
  have large : (2147483647 : Int) < (Geant4File.gemHit m record).fModule := by
    have back : Arith.trunc (Arith.ofInt module : F) = module := by
      rcases failed with rfl | rfl
      · exact Arith.trunc_ofInt _ (by decide) (by decide)
      · exact Arith.trunc_ofInt _ (by decide) (by decide)
    have field : (Geant4File.gemHit m record).fModule = toUInt32 module := by rw [Geant4File.gemHit, moduleNumber, back]
    rw [field]
    rcases failed with rfl | rfl
    · decide
    · decide
  omega

theorem returned_origin (g : Geant4File F) (block : HitBlock F) (kept : List (RawHit F)) (stored : List (G4SBSHitData F))
    (recorded : List.Forall₂ (Geant4File.Recorded g block) kept stored) :
    List.Forall₂ (fun h hit => ∃ record, Geant4File.Recorded g block h record ∧ hit = Geant4File.gemHit g.fManager record)
      (kept.filter (fun h => decide (0.0 < h.edep * 1.0e3)))
      ((stored.filter (fun record => decide (0.0 < record.getData 1))).map (Geant4File.gemHit g.fManager)) := by
  have positive : List.Forall₂ (Geant4File.Recorded g block) (kept.filter (fun h => decide (0.0 < h.edep * 1.0e3)))
      (stored.filter (fun record => decide (0.0 < record.getData 1))) := by
    refine List.rel_filter (fun h record made => ?_) recorded
    obtain ⟨_, _, _, energy, _⟩ := Geant4File.recorded_numbers g block h record made
    change decide (0.0 < h.edep * 1.0e3) = true ↔ decide (0.0 < record.getData 1) = true
    rw [energy]
  rw [List.forall₂_map_right_iff]
  exact positive.imp (fun h record made => ⟨record, made, rfl⟩)

open Classical in
-- What GetGEMData hands on after ReadNextEvent, with the hits of the tree that
-- it stands for.
theorem handed_on (g g' : Geant4File F) (m : DBManager F) (manager : g.fManager = m) (unwritten : Unwritten F)
    (tree : G4SBSTree F) (read : g.readNextEvent unwritten (some tree) = some g') (fRunID : Nat) :
    (g'.getGEMData fRunID).fHitData =
        (g'.fg4sbsHitData.filter (fun record => decide (0.0 < record.getData 1))).map (Geant4File.gemHit m) ∧
      ∃ (cleared : Geant4File F) (block : HitBlock F), cleared.fManager = m ∧
        (block.testsModule = true ↔ m.fg4sbsDetectorType = 1) ∧
        List.Forall₂ (fun h hit => ∃ record, Geant4File.Recorded cleared block h record ∧ hit = Geant4File.gemHit m record)
          (((Geant4File.hitColumns m.fg4sbsDetectorType tree).filter (fun h => ¬ Geant4File.Skips m block.testsModule h)).filter
            (fun h => decide (0.0 < h.edep * 1.0e3)))
          (g'.getGEMData fRunID).fHitData := by
  obtain ⟨kept, cleared, block, manager', tests, _, stored⟩ := Geant4File.next_event_hits g g' unwritten tree read
  rw [manager] at kept manager' tests stored
  have returned := Geant4File.gem_data_hits g' fRunID
  rw [kept] at returned
  have origin := returned_origin cleared block _ _ (Geant4File.read_hits_recorded cleared _ block _ _ stored)
  rw [manager', ← returned] at origin
  exact ⟨returned, cleared, block, manager', tests, origin⟩

-- A hit whose lookup failed is handed on with a module that does not exist,
-- unless case 1 leaves it out.
theorem misplaced_handed_on (info : GeneralInfo) (fits : info.Fits) (g g' : Geant4File F) (m : DBManager F)
    (manager : g.fManager = m) (unwritten : Unwritten F) (tree : G4SBSTree F)
    (read : g.readNextEvent unwritten (some tree) = some g') (fRunID : Nat) (h : RawHit F)
    (member : h ∈ Geant4File.hitColumns m.fg4sbsDetectorType tree) (energy : 0.0 < h.edep * 1.0e3) (module : Int)
    (failed : module = fErrVal ∨ module = -1) (lookup : m.getModuleIDFromPos (h.plane - 1) h.tx = some module)
    (stays : ¬ (m.fg4sbsDetectorType = 1 ∧ module = -1)) :
    ∃ hit ∈ (g'.getGEMData fRunID).fHitData, ¬ Belongs info m hit ∧ ∃ record : G4SBSHitData F,
      hit = Geant4File.gemHit m record ∧ record.getData 0 = Arith.ofInt (h.plane - 1) ∧
        record.getData 19 = Arith.ofInt module := by
  classical
  obtain ⟨_, cleared, block, manager', tests, origin⟩ := handed_on g g' m manager unwritten tree read fRunID
  have keeps : ¬ Geant4File.Skips m block.testsModule h := fun skips =>
    stays ⟨tests.mp skips.1, Option.some.inj (lookup.symm.trans skips.2)⟩
  obtain ⟨hit, handed, record, recorded, result⟩ := forall₂_mem_left _ _ _ origin h
    (List.mem_filter.mpr ⟨List.mem_filter.mpr ⟨member, decide_eq_true keeps⟩, decide_eq_true energy⟩)
  obtain ⟨module', found, plane, _, number⟩ := Geant4File.recorded_numbers cleared block h record recorded
  rw [manager', lookup] at found
  rw [← Option.some.inj found] at number
  exact ⟨hit, handed, result ▸ misplaced_hit info fits m record module failed number, record, result, plane, number⟩

-- A tracker file whose one event has one hit, at tx in the first plane; the
-- one module spans x from -0.5 to 0.5.
noncomputable def ftTree (tx : ℝ) : G4SBSTree ℝ where
  ev_solang := 0
  ev_sigma := 0
  ev_v := ⟨0, 0, 0⟩
  ev_np := ⟨0, 0, 0⟩
  ev_ep := ⟨0, 0, 0⟩
  Earm_BBGEM := ⟨[], []⟩
  Harm_FT := ⟨[⟨1, 1, 0, 11, 1, 1, 0, 0, tx, 0, 0, tx, 0, 0, tx, 0, 0, 0, 0, 0⟩], []⟩
  Harm_FPP1 := ⟨[], []⟩
  Harm_FPP2 := ⟨[], []⟩

def ftInfo : GeneralInfo := ⟨1, 1, [1], 128, 3⟩

theorem ft_info_fits : ftInfo.Fits := ⟨by decide, by decide⟩

theorem ft_loads :
    ∃ general m : DBManager ℝ, DBManager.loadGeneralInfo ftInfo = some general ∧
      general.loadGeoInfo (fun _ _ => some ⟨0, 0, 1, 1, 1, 1⟩) = some m ∧ m.fg4sbsDetectorType = 3 ∧
      m.getGEMID 0 (-1) = 0 ∧ ∀ tx : ℝ, m.getModuleIDFromPos 0 tx = some (if -1 / 2 ≤ tx ∧ tx ≤ 1 / 2 then 0 else -1) := by
  refine ⟨_, _, rfl, rfl, rfl, rfl, fun tx => ?_⟩
  change some (if (0 : ℝ) - 1 / 2.0 ≤ tx ∧ tx ≤ 0 + 1 / 2.0 then (0 : Int) else -1) = _
  norm_num

end Solgem
