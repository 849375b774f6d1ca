import Solgem.HitAttribution

set_option autoImplicit false

namespace Solgem

open Lib

variable {F : Type} [Arith F]

-- The same columns as the branches of the first or of the second polarimeter.
def G4SBSTree.polarimeters (tree : G4SBSTree F) (first second : DetectorColumns F) : G4SBSTree F :=
  { tree with Harm_FPP1 := first, Harm_FPP2 := second }

namespace Geant4File

def withDetector (g : Geant4File F) (fg4sbsDetectorType : Int) : Geant4File F :=
  { g with fManager := { g.fManager with fg4sbsDetectorType := fg4sbsDetectorType } }

def records (g : Geant4File F) : List (G4SBSHitData F) × List (G4SBSHitData F) := (g.fg4sbsHitData, g.fg4sbsGenData)

def asFPP1 (g : Geant4File F) (unwritten : Unwritten F) (tree : G4SBSTree F) (columns other : DetectorColumns F) :
    Option (Geant4File F) :=
  (g.withDetector 4).readNextEvent unwritten (some (tree.polarimeters columns other))

def asFPP2 (g : Geant4File F) (unwritten : Unwritten F) (tree : G4SBSTree F) (columns other : DetectorColumns F) :
    Option (Geant4File F) :=
  (g.withDetector 5).readNextEvent unwritten (some (tree.polarimeters other columns))

-- The two cases make the same records, and what case 5 takes from the tracks
-- before its hit loop is the same whatever the first polarimeter has.
structure SameConversion (g : Geant4File F) (unwritten : Unwritten F) (tree : G4SBSTree F) (columns : DetectorColumns F) :
    Prop where
  same : ∀ other other', (g.asFPP2 unwritten tree columns other).map records = (g.asFPP1 unwritten tree columns other').map records
  unread : ∀ other other', g.fpp2Primary unwritten (tree.polarimeters other columns) =
    g.fpp2Primary unwritten (tree.polarimeters other' columns)

-- A signal event whose first track is a proton.
def TakesProton (g : Geant4File F) (columns : DetectorColumns F) : Prop :=
  g.fSource = 0 ∧ ∃ track, columns.Track.head? = some track ∧ track.PID = 2212

theorem fpp2_primary_proton (g : Geant4File F) (unwritten : Unwritten F) (tree : G4SBSTree F)
    (columns other : DetectorColumns F) (proton : g.TakesProton columns) :
    ∃ TID, g.fpp2Primary unwritten (tree.polarimeters other columns) =
      other.Track.head?.map (fun first => (first.MID, TID)) := by
  obtain ⟨signal, track, first, pid⟩ := proton
  obtain ⟨rest, tracks⟩ := List.head?_eq_some_iff.mp first
  refine ⟨Arith.ofInt track.TID, ?_⟩
  simp only [fpp2Primary, G4SBSTree.polarimeters, tracks, signal, pid, true_and, if_true]

-- Without a proton both polarimeters start the hit loop alike.
theorem primary_without_proton (g : Geant4File F) (unwritten : Unwritten F) (tree : G4SBSTree F)
    (columns other other' : DetectorColumns F) (none_taken : ¬ g.TakesProton columns) :
    g.fpp2Primary unwritten (tree.polarimeters other columns) = some (0, unwritten.gen_data_temp) ∧
      g.fpp1Primary unwritten (tree.polarimeters columns other') = (0, unwritten.gen_data_temp) := by
  simp only [fpp2Primary, fpp1Primary, G4SBSTree.polarimeters]
  cases tracks : columns.Track with
  | nil => exact ⟨rfl, rfl⟩
  | cons track rest =>
      have other_kind : ¬ (g.fSource = 0 ∧ track.PID = 2212) := fun proton =>
        none_taken ⟨proton.1, track, by rw [tracks, List.head?_cons], proton.2⟩
      exact ⟨if_neg other_kind, if_neg other_kind⟩

-- What both cases do once they know which hits are primary.
def readPolarimeter (g : Geant4File F) (unwritten : Unwritten F) (tree : G4SBSTree F) (columns : DetectorColumns F)
    (primary : Int × F) : Option (List (G4SBSHitData F) × List (G4SBSHitData F)) :=
  (g.readTrack unwritten.genData tree tree.ev_np columns.Track (fun track => track.PID = 2212)).bind (fun tracks =>
    (g.readHits unwritten.hitData (g.fppBlock primary.1 primary.2) columns.hit).bind (fun hits => some (hits, tracks)))

theorem as_fpp1_records (g : Geant4File F) (unwritten : Unwritten F) (tree : G4SBSTree F) (columns other : DetectorColumns F) :
    (g.asFPP1 unwritten tree columns other).map records =
      g.readPolarimeter unwritten tree columns (g.fpp1Primary unwritten (tree.polarimeters columns other)) := by
  change Option.map records ((g.readTrack unwritten.genData tree tree.ev_np columns.Track (fun track => track.PID = 2212)).bind
    (fun tracks => (g.readHits unwritten.hitData (g.fppBlock _ _) columns.hit).bind (fun hits => some _))) = _
  simp only [readPolarimeter, Option.map_bind, Function.comp_def, Option.map_some]
  rfl

theorem as_fpp2_records (g : Geant4File F) (unwritten : Unwritten F) (tree : G4SBSTree F) (columns other : DetectorColumns F) :
    (g.asFPP2 unwritten tree columns other).map records =
      (g.fpp2Primary unwritten (tree.polarimeters other columns)).bind (g.readPolarimeter unwritten tree columns) := by
  change Option.map records ((g.fpp2Primary unwritten (tree.polarimeters other columns)).bind (fun primary =>
    (g.readTrack unwritten.genData tree tree.ev_np columns.Track (fun track => track.PID = 2212)).bind
      (fun tracks => (g.readHits unwritten.hitData (g.fppBlock _ _) columns.hit).bind (fun hits => some _)))) = _
  rw [Option.map_bind]
  congr 1
  funext primary
  simp only [readPolarimeter, Option.map_bind, Function.comp_def, Option.map_some]
  rfl

theorem polarimeters_alike_exactly (g : Geant4File F) (unwritten : Unwritten F) (tree : G4SBSTree F)
    (columns : DetectorColumns F) : g.SameConversion unwritten tree columns ↔ ¬ g.TakesProton columns := by
  constructor
  · intro alike proton
    obtain ⟨TID, primary⟩ := fpp2_primary_proton g unwritten tree columns ⟨[], []⟩ proton
    obtain ⟨track, first, _⟩ := proton.2
    obtain ⟨TID', primary'⟩ := fpp2_primary_proton g unwritten tree columns columns proton
    have read := (primary.symm.trans (alike.unread ⟨[], []⟩ columns)).trans primary'
    rw [first] at read
    cases read
  · intro none_taken
    refine ⟨fun other other' => ?_, fun other other' => ?_⟩
    · obtain ⟨second, first⟩ := primary_without_proton g unwritten tree columns other other' none_taken
      rw [as_fpp1_records, as_fpp2_records, second, first, Option.bind_some]
    · rw [(primary_without_proton g unwritten tree columns other other none_taken).1,
        (primary_without_proton g unwritten tree columns other' other none_taken).1]

theorem recorded_type (g : Geant4File F) (block : HitBlock F) (h : RawHit F) (record : G4SBSHitData F)
    (recorded : Recorded g block h record) : record.getData 13 = Arith.ofInt (block.type h) := by
  obtain ⟨module, values, _, made, entries⟩ := recorded
  obtain ⟨xoffset, _, made⟩ := Option.bind_eq_some_iff.mp made
  obtain ⟨d0, _, made⟩ := Option.bind_eq_some_iff.mp made
  obtain ⟨dx, _, made⟩ := Option.bind_eq_some_iff.mp made
  obtain ⟨dy, _, made⟩ := Option.bind_eq_some_iff.mp made
  cases made
  exact entries 13 _ rfl

theorem read_polarimeter_one (info : GeneralInfo) (g : Geant4File F) (loaded : Loaded info g.fManager)
    (chambers : info.nchamber ≤ info.nmodule.length) (unwritten : Unwritten F) (tree : G4SBSTree F) (h : RawHit F)
    (tracks : List (RawTrack F)) (primary : Int × F) :
    ∃ record stored, g.readPolarimeter unwritten tree ⟨[h], tracks⟩ primary = some ([record], stored) ∧
      g.readTrack unwritten.genData tree tree.ev_np tracks (fun track => track.PID = 2212) = some stored ∧
      record.getData 13 = Arith.ofInt ((g.fppBlock primary.1 primary.2).type h) := by
  obtain ⟨stored, track⟩ := read_track_total g unwritten.genData tree tree.ev_np tracks (fun track => track.PID = 2212)
  obtain ⟨hits, read⟩ := read_hits_total info g.fManager loaded chambers g rfl unwritten.hitData
    (g.fppBlock primary.1 primary.2) [h]
  obtain ⟨record, single, made⟩ := read_hits_one g unwritten.hitData _ h hits read (fun skips => Bool.noConfusion skips.1)
  subst single
  exact ⟨record, stored, Option.bind_eq_some_iff.mpr ⟨stored, track, Option.bind_eq_some_iff.mpr ⟨_, read, rfl⟩⟩, track,
    recorded_type g _ h record made⟩

end Geant4File

-- A proton with mother 5, and a hit of it.
noncomputable def protonColumns : DetectorColumns ℝ :=
  ⟨[⟨1, 1, 5, 2212, 1, 1, 0, 0, 0, 0, 0, 0, 0, 0, 0, 0, 0, 0, 0, 0⟩], [⟨1, 2212, 5, 0, 0, 0, 0, 1⟩]⟩

-- The hit is primary in the first polarimeter. In the second one its type
-- depends on the first one's track, and without such a track there is no event.
theorem leftover_track_decides :
    ∃ (g : Geant4File ℝ) (unwritten : Unwritten ℝ) (first second : G4SBSHitData ℝ) (stored : List (G4SBSHitData ℝ)),
      (g.asFPP1 unwritten (ftTree 0) protonColumns ⟨[], []⟩).map Geant4File.records = some ([first], stored) ∧
      (g.asFPP2 unwritten (ftTree 0) protonColumns ⟨[], [⟨1, 2212, 0, 0, 0, 0, 0, 1⟩]⟩).map Geant4File.records =
        some ([second], stored) ∧
      first.getData 13 = 1 ∧ second.getData 13 = 6 ∧
      g.asFPP2 unwritten (ftTree 0) protonColumns ⟨[], []⟩ = none ∧
      ¬ g.SameConversion unwritten (ftTree 0) protonColumns := by
  obtain ⟨general, m, loadedInfo, loadedGeo, _⟩ := ft_loads
  let g : Geant4File ℝ := ⟨m, 0, 0, 0, [], []⟩
  let unwritten : Unwritten ℝ := ⟨fun _ _ => 0, fun _ => 0, 0⟩
  have loaded := loaded_of_load ftInfo _ general m loadedInfo loadedGeo
  have read := Geant4File.read_polarimeter_one ftInfo g loaded (by decide) unwritten (ftTree 0)
    ⟨1, 1, 5, 2212, 1, 1, 0, 0, 0, 0, 0, 0, 0, 0, 0, 0, 0, 0, 0, 0⟩ [⟨1, 2212, 5, 0, 0, 0, 0, 1⟩]
  obtain ⟨first, stored, own, track, primary⟩ := read (5, Arith.ofInt 1)
  obtain ⟨second, stored', leftover, track', secondary⟩ := read (0, Arith.ofInt 1)
  rw [track] at track'
  cases track'
  have alone : (g.asFPP2 unwritten (ftTree 0) protonColumns ⟨[], []⟩).map Geant4File.records = none :=
    Geant4File.as_fpp2_records g unwritten (ftTree 0) protonColumns ⟨[], []⟩
  have direct : (g.asFPP1 unwritten (ftTree 0) protonColumns ⟨[], []⟩).map Geant4File.records = some ([first], stored) :=
    (Geant4File.as_fpp1_records g unwritten (ftTree 0) protonColumns ⟨[], []⟩).trans own
  refine ⟨g, unwritten, first, second, stored, direct, ?_, ?_, ?_, ?_, fun alike => ?_⟩
  · exact (Geant4File.as_fpp2_records g unwritten (ftTree 0) protonColumns _).trans leftover
  · rw [primary]
    simp [Geant4File.fppBlock, g, Arith.ofInt]
  · rw [secondary]
    simp [Geant4File.fppBlock, g, Arith.ofInt]
  · exact Option.map_eq_none_iff.mp alone
  · have same := alike.same ⟨[], []⟩ ⟨[], []⟩
    rw [alone, direct] at same
    cases same

end Solgem
