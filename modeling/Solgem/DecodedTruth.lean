import Solgem.CrossReferences
import Solgem.Forgetting
import Solgem.PointDifferences
import Solgem.StripTruth
import Solgem.WrittenEvents

set_option autoImplicit false

namespace Solgem

open Lib Digitizer

section
variable {F : Type} [Arith F] {rng : Rng F}

theorem digitize_event_reachable (su : Setup F) (d : Digitizer F) (reachable : Reachable rng su d) (gdata : SimHitData F)
    (more : List (SimHitData F)) (st : rng.State) :
    Ensures (fun _ => True) (fun d' _ => Reachable rng su d') ((digitizeEvent su d gdata more : Draw rng _) st) := by
  have call (d : Digitizer F) (reachable : Reachable rng su d) (c : Call F) (st : rng.State) :
      Ensures (fun _ => True) (fun d' _ => Reachable rng su d') ((c.apply su d : Draw rng _) st) :=
    ensures_mono _ _ (fun _ _ both => both.2) _
      (reached su d reachable c (fun _ _ => True) st (ensures_of_ok _ _ (fun _ => trivial) fun _ _ _ => trivial))
  refine ensures_bind _ _ _ _ st (call d reachable (.digitize gdata) st) fun d1 st1 first => ?_
  refine ensures_bind (fun d2 _ => Reachable rng su d2) _ _ _ st1 ?_ fun d2 st2 added => call d2 added .fillTree st2
  exact ensures_foldlM _ (fun _ d _ => Reachable rng su d) [] more (fun _ gdata d s _ kept => call d kept (.additiveDigitize gdata) s)
    d1 st1 first

theorem digitize_event_references (su : Setup F) (limits : Limits su) (d : Digitizer F) (reachable : Reachable rng su d)
    (gdata : SimHitData F) (more : List (SimHitData F)) (st : rng.State)
    (fit : Along (additiveDigitize su) (HitsMeet rng su (AvalancheFits rng su)) (gdata :: more) d.clearAll st) :
    Ensures (fun fault => fault = .avaModel ∨ fault = .badAccess)
      (fun d' _ => d'.fEvent.fGEMClust.length ≤ 32767 → CrossReferenced su d')
      ((digitizeEvent su d gdata more : Draw rng _) st) := by
  have first := additive_digitize_digitized su limits.strips d.clearAll gdata st fit.1
    (digitized_clear_all su d (reachable_steady su d reachable))
  refine ensures_bind _ _ _ _ st (ensures_run _ _ first) ?_
  rintro d1 st1 ⟨digitized, ran⟩
  refine ensures_bind _ _ _ _ st1 (ensures_foldlM_along _ _ (fun _ d _ => Digitized su d) [] more
    (fun _ gdata d s _ fit kept => additive_digitize_digitized su limits.strips d gdata s fit kept) d1 st1 (fit.2 d1 st1 ran)
    digitized) ?_
  rintro d2 st2 ⟨⟨ledgers, ledgered⟩, untouched⟩
  refine fill_tree_ensures su d2 (fun _ => .inr rfl) st2 _ (fun flag room => ?_) (fun _ records shows room => ?_)
  · obtain ⟨clusters, records⟩ := untouched flag
    exact cross_referenced_empty su d2.writeEvent clusters records
  · have read := cross_referenced_of_shows su d2 ledgers ledgered room records shows
    exact ⟨read.refs, read.lengths, read.once, read.spread⟩

omit [Arith F] in
-- A plane for every module, and a chamber for every plane: the lookups of a
-- module that exists are in their tables.
theorem module_geometry (info : GeneralInfo) (m : DBManager F) (loaded : Loaded info m)
    (planes : info.nmodule.length ≤ info.nchamber) (i j count : Int) (plane : 0 ≤ i) (found : info.nmodule[i.toNat]? = some count)
    (low : 0 ≤ j) (below : j < count) : m.checkIndex i j = some true ∧ ∃ record, m.geoInfo i j = some record := by
  have row := (List.getElem?_eq_some_iff.mp found).1
  have limit := loaded.chambers
  have legal : ¬ (m.fNChamber ≤ i ∨ i < 0) := by omega
  have listed : ¬ (count ≤ j ∨ j < 0) := by omega
  refine ⟨?_, geo_info_counted info m loaded i j count plane found low below⟩
  rw [DBManager.checkIndex, if_neg legal, loaded.counts, found, Option.map_some, decide_eq_false listed]
  rfl

omit [Arith F] in
theorem chamber_geometry (info : GeneralInfo) (m : DBManager F) (su : Setup F) (configured : Configured info m su)
    (m' : DBManager F) (loaded : Loaded info m') (fPlane fModule : Int) (inside : su.InChamber fPlane fModule) :
    m'.checkIndex fPlane fModule = some true ∧ ∃ record, m'.geoInfo fPlane fModule = some record := by
  obtain ⟨ich, chamber, plane, module⟩ := inside
  obtain ⟨i, j, numbers⟩ := chamber_numbers info m su configured ich chamber
  obtain ⟨count, found, below⟩ := numbers.counted
  rw [plane, module, numbers.plane, numbers.module]
  exact module_geometry info m' loaded configured.planes i j count (Int.natCast_nonneg i) found (Int.natCast_nonneg j) below

theorem cross_references_attribute (info : GeneralInfo) (m : DBManager F) (su : Setup F) (configured : Configured info m su)
    (m' : DBManager F) (loaded : Loaded info m') (d : Digitizer F) (placed : EventPlaced su d.fEvent) (cross : CrossReferenced su d)
    (record : DigiGEMStrip F) (member : record ∈ d.fEvent.fGEMStrips) :
    ∀ id ∈ record.fClusters, Attributed m' d.fEvent.fGEMClust record id := by
  intro id listed
  obtain ⟨iclust, c, index, here, number, plane, _, sector⟩ := cross.refs record member id listed
  obtain ⟨passed, geo, found⟩ := chamber_geometry info m su configured m' loaded _ _ (placed.clusters c (List.mem_of_getElem? here))
  refine ⟨c, geo.xoffset, ?_, by omega, plane.symm, sector.symm, ?_⟩
  · rw [clusterOf, if_pos (by omega), index, Int.toNat_natCast]
    exact here
  · rw [DBManager.getXOffset, passed, found]
    rfl

theorem contribution_ids (m' : DBManager F) (fGEMClust : List (GEMCluster F)) (record : DigiGEMStrip F)
    (attributed : ∀ id ∈ record.fClusters, Attributed m' fGEMClust record id) :
    (contributions fGEMClust record).map GEMCluster.fID = record.fClusters := by
  rw [contributions]
  generalize record.fClusters = ids at attributed
  induction ids with
  | nil => rfl
  | cons id ids ih =>
      obtain ⟨first, rest⟩ := List.forall_mem_cons.mp attributed
      obtain ⟨c, _, found, number, _⟩ := first
      rw [List.filterMap_cons, found, List.map_cons, ih rest, number]

end

section
variable {S : Type} {rng : Rng ℝ}

-- What the decoder answers for the channel of a strip: the clusters that left
-- charge on it are those the digitization listed, and the truth is theirs.
structure TruthReadBack (dec : DecoderSetup ℝ S) (fNReadOut : Int) (fSignalInfo : List SignalInfo) (simEvent : SimEvent ℝ)
    (e : DecodedEvent ℝ S) (record : DigiGEMStrip ℝ) (a : RocAddress) (mc : MCHitInfo ℝ) : Prop where
  address : record.id.toROCD dec.manager dec.slots = some a
  answer : getSBSMCHitInfo dec.manager dec.slots e.fStripMap fNReadOut fSignalInfo simEvent a = some mc
  listed : (contributions simEvent.fGEMClust record).map GEMCluster.fID = record.fClusters
  direct : inducedOnly record.fSigType = false →
    Truth dec.manager fSignalInfo record (contributions simEvent.fGEMClust record) mc
  induced : inducedOnly record.fSigType = true →
    mc.fMCTrack = 0 ∧ mc.fMCTime = record.fTime1 ∧
      dec.manager.getPosFromModuleStrip record.fProj record.fPlane record.fModule record.fChan = some mc.fMCPos

theorem induced_truth (info : GeneralInfo) (m : DBManager ℝ) (loaded : Loaded info m) (planes : info.nmodule.length ≤ info.nchamber)
    (fNReadOut : Int) (two : 2 ≤ fNReadOut) (fSignalInfo : List SignalInfo) (fGEMClust : List (GEMCluster ℝ)) (record : DigiGEMStrip ℝ)
    (present : record.id.Exists m) (induced : inducedOnly record.fSigType = true) :
    ∃ mc, stripMCHitInfo m fNReadOut fSignalInfo fGEMClust record = some mc ∧ mc.fMCTrack = 0 ∧ mc.fMCTime = record.fTime1 ∧
      m.getPosFromModuleStrip record.fProj record.fPlane record.fModule record.fChan = some mc.fMCPos := by
  obtain ⟨low, ⟨count, found, first, last⟩, proj, _⟩ := present
  rw [loaded.counts] at found
  have proj' : record.fProj = 0 ∨ record.fProj = 1 := proj
  obtain ⟨passed, geo, listed⟩ := module_geometry info m loaded planes record.fPlane record.fModule count low found first last
  obtain ⟨pos, position⟩ : ∃ pos, m.getPosFromModuleStrip record.fProj record.fPlane record.fModule record.fChan = some pos := by
    rw [DBManager.getPosFromModuleStrip, passed, listed, Option.bind_some, if_pos rfl]
    rcases proj' with u | v
    · exact ⟨_, if_pos u⟩
    · exact ⟨_, (if_neg (by omega)).trans (if_pos v)⟩
  rw [stripMCHitInfo, if_pos (by omega), if_pos induced, position]
  exact ⟨_, rfl, rfl, rfl, rfl⟩

-- From the hits to the decoder: whatever was digitized into an event, the
-- truth read for the channel of any of its strips is that of the clusters the
-- digitization listed for the strip.
theorem digitized_truth_read_back (su : Setup ℝ) (limits : Limits su) (info : GeneralInfo) (m : DBManager ℝ)
    (configured : Configured info m su) (dec : DecoderSetup ℝ S) (shared : SharedBy m dec) (geometry : Loaded info dec.manager)
    (keeps : dec.lib.Keeps) (sorts : Sorts dec.sort) (fNReadOut : Int) (two : 2 ≤ fNReadOut) (fSignalInfo : List SignalInfo)
    (tracks : ∀ signal ∈ fSignalInfo, 0 < signal.tid) (d : Digitizer ℝ) (reachable : Reachable rng su d) (gdata : SimHitData ℝ)
    (more : List (SimHitData ℝ)) (st st' : rng.State)
    (fit : Along (additiveDigitize su) (HitsMeet rng su (AvalancheFits rng su)) (gdata :: more) d.clearAll st) (d' : Digitizer ℝ)
    (ran : (digitizeEvent su d gdata more : Draw rng _) st = .ok (d', st')) (room : d'.fEvent.fGEMClust.length ≤ 32767)
    (e : DecodedEvent ℝ S) (decoded : doLoadEvent dec d'.fEvent = .ok e) (record : DigiGEMStrip ℝ)
    (member : record ∈ d'.fEvent.fGEMStrips) : ∃ a mc, TruthReadBack dec fNReadOut fSignalInfo d'.fEvent e record a mc := by
  have cross := ensures_ok _ d' st' _ (digitize_event_references su limits d reachable gdata more st fit) ran room
  have placed := reachable_placed su d' (ensures_ok _ d' st' _ (digitize_event_reachable su d reachable gdata more st) ran)
  have strips := placed_strips_placed info m su configured dec shared d'.fEvent placed
  have present := strips.present record member
  have proj : record.fProj = 0 ∨ record.fProj = 1 := present.2.2.1
  have attributed := cross_references_attribute info m su configured dec.manager geometry d' placed cross record member
  have settled := placed_event_decodes info m su configured dec shared keeps sorts d'.fEvent placed (load_event_tracked dec _ e decoded)
  rw [decoded] at settled
  obtain ⟨n, here⟩ := List.mem_iff_getElem?.mp member
  obtain ⟨a, read⟩ := settled.strips n record here
  have answer := read.truth fNReadOut fSignalInfo
  have listed := contribution_ids dec.manager d'.fEvent.fGEMClust record attributed
  cases induced : inducedOnly record.fSigType with
  | false =>
      obtain ⟨mc, result, truth⟩ := strip_truth dec.manager fNReadOut fSignalInfo tracks d'.fEvent.fGEMClust record proj (by omega)
        induced attributed
      exact ⟨a, mc, read.address, answer.trans result, listed, fun _ => truth, fun other => Bool.noConfusion (induced.symm.trans other)⟩
  | true =>
      obtain ⟨mc, result, truth⟩ := induced_truth info dec.manager geometry configured.planes fNReadOut two fSignalInfo
        d'.fEvent.fGEMClust record present induced
      exact ⟨a, mc, read.address, answer.trans result, listed, fun other => Bool.noConfusion (induced.symm.trans other), fun _ => truth⟩

end

theorem crossing_fits (d : Digitizer ℝ) :
    Along (additiveDigitize (bench 3 1)) (HitsMeet (Rng.scripted ℝ) (bench 3 1) (AvalancheFits (Rng.scripted ℝ) (bench 3 1)))
      [crossingData] d [1] := by
  have fit : ∀ d st, AvalancheFits (Rng.scripted ℝ) (bench 3 1) d crossing st := by
    intro d st ch ion st' r accepted _ _ region ip iL iU range
    rw [bench_accepts] at accepted
    cases accepted
    rw [bench_area, bench_active] at region
    cases region
    rw [bench_strip_range] at range
    cases range
    decide
  exact ⟨⟨fit _ _, fun _ _ _ => trivial⟩, fun _ _ _ => trivial⟩

-- One track is generated, and its hit digitized.
theorem crossing_event :
    ∃ d, Reachable (Rng.scripted ℝ) (bench 3 1) d ∧ d.fEvent.fMCTracks ≠ [] ∧
      ∃ d' st, (digitizeEvent (bench 3 1) d crossingData [] : Draw (Rng.scripted ℝ) _) [1] = .ok (d', st) ∧
        d'.fEvent.fMCTracks ≠ [] ∧ d'.fEvent.fGEMStrips ≠ [] ∧ d'.fEvent.fGEMClust.length ≤ 32767 := by
  let fresh := Digitizer.new (bench 3 1) unwritten none
  let f : Geant4Event ℝ := ⟨[⟨1, 11, ⟨0, 0, 1⟩, ⟨0, 0, 0⟩, ⟨0, 0, 1⟩, ⟨0, 0, 0⟩, 1⟩], [], []⟩
  have first : Reachable (Rng.scripted ℝ) (bench 3 1) fresh := Reachable.init unwritten none
  obtain ⟨d, set⟩ : ∃ d, (fresh.setTreeEvent (bench 3 1) crossingData f 0 : Draw (Rng.scripted ℝ) _) [1] = .ok (d, [1]) := ⟨_, rfl⟩
  have reachable : Reachable (Rng.scripted ℝ) (bench 3 1) d := Reachable.call fresh d (.setTreeEvent crossingData f 0) [1] [1] first set
  obtain ⟨e, same, info⟩ := ensures_ok _ d [1] _ (@set_tree_event_info ℝ _ (Rng.scripted ℝ) (fun _ => True) (bench 3 1) fresh
    crossingData f 0 (Int.le_refl 0) [1]) set
  have tracked : d.fEvent.fMCTracks ≠ [] := by
    rw [same]
    exact info.tracks ▸ List.cons_ne_nil _ _
  obtain ⟨vv, digitized, ran, _⟩ := bench_one_ion 1 (by decide) (by decide) unwritten none
  have agree := @digitize_agree ℝ _ (Rng.scripted ℝ) (bench 3 1) fresh d (reachable_steady _ _ first) (reachable_steady _ _ reachable)
    crossingData [1]
  obtain ⟨d1, digitized1⟩ : ∃ d1, (d.digitize (bench 3 1) crossingData : Draw (Rng.scripted ℝ) _) [1] = .ok (d1, []) := by
    rw [ran] at agree
    generalize (d.digitize (bench 3 1) crossingData : Draw (Rng.scripted ℝ) _) [1] = outcome at agree
    cases agree
    exact ⟨_, rfl⟩
  have any : ∀ fault : Fault, (fun _ => True) fault := fun _ => trivial
  have kept := ensures_ok _ d1 [] _ (@additive_digitize_info ℝ _ (Rng.scripted ℝ) (fun _ => True) (bench 3 1) d.clearAll crossingData
    any [1]) digitized1
  have grown := ensures_ok _ d1 [] _ (@additive_digitize_effect ℝ _ (Rng.scripted ℝ) (fun _ => True) (bench 3 1) d.clearAll
    crossingData any [1]) digitized1
  have flag := ensures_ok _ d1 [] _ (@additive_digitize_mode ℝ _ (Rng.scripted ℝ) (fun _ => True) (bench 3 1) d.clearAll
    crossingData .lost ⟨rfl, rfl⟩ any [1]) digitized1
  have steady := reachable_steady _ _
    (@Reachable.call ℝ _ (Rng.scripted ℝ) (bench 3 1) d d1 (.digitize crossingData) [1] [] reachable digitized1)
  have width (ic : Nat) (ip : Fin 2) : (d1.fDP ic ip).fNStrips = if ic = 0 then 3 else 0 :=
    (steady.shape ic ip).strips.trans (bench_strips 3 1 (by decide) ic ip)
  have small : (∃ strip ∈ strips (bench 3 1) d1.fDP, 32768 ≤ strip.2.2) → False := by
    rintro ⟨strip, member, large⟩
    obtain ⟨_, below⟩ := (mem_strips (bench 3 1) d1.fDP strip).mp member
    rw [width] at below
    split at below <;> omega
  have written : Ensures (fun _ => False)
      (fun d' _ => d'.fEvent.fMCTracks ≠ [] ∧ d'.fEvent.fGEMStrips ≠ [] ∧ d'.fEvent.fGEMClust = d1.fEvent.fGEMClust)
      ((d1.fillTree (bench 3 1) : Draw (Rng.scripted ℝ) _) []) := by
    refine @fill_tree_ensures ℝ _ (Rng.scripted ℝ) _ (bench 3 1) d1 small [] _
      (fun filled => Bool.noConfusion (filled.symm.trans flag)) (fun _ records shows => ⟨?_, fun none_left => ?_, rfl⟩)
    · exact (congrArg EventInfo.fMCTracks kept).trans_ne tracked
    · obtain ⟨record, member, _⟩ := forall₂_mem_left _ _ _ shows (0, 0, 0)
        ((mem_strips (bench 3 1) d1.fDP _).mpr ⟨Nat.zero_lt_one, by rw [width]; decide⟩)
      rw [show records = [] from none_left] at member
      cases member
  obtain ⟨d', st, filled, tracks, records, clusters⟩ := ensures_total _ _ written
  have few : crossingData.fHitData.countP (fun h => ((bench 3 1).accepts h).isSome) ≤ 1 := List.countP_le_length
  have none_before : d.clearAll.fEvent.fGEMClust.length = 0 := rfl
  have length := grown.2
  refine ⟨d, reachable, tracked, d', st, ?_, tracks, records, by rw [clusters]; omega⟩
  exact (@draw_bind_of ℝ (Rng.scripted ℝ) _ _ _ _ d1 [1] [] digitized1).trans filled

theorem digitized_truth_read_back_crossing :
    ∃ (d' : Digitizer ℝ) (m' : DBManager ℝ) (e : DecodedEvent ℝ (List SlotData)), doLoadEvent (plainSetup m') d'.fEvent = .ok e ∧
      d'.fEvent.fGEMStrips ≠ [] ∧
      ∀ record ∈ d'.fEvent.fGEMStrips, ∃ a mc, TruthReadBack (plainSetup m') 2 [⟨11, 1⟩] d'.fEvent e record a mc := by
  obtain ⟨d, reachable, _, d', st, ran, tracks, records, room⟩ := crossing_event
  have configured := bench_configured 3 (by decide)
  let geo : Int → Int → Option (GeoInfo ℝ) := fun _ _ => some ⟨1, 1, 1, 1, 1, 1⟩
  obtain ⟨m', loaded⟩ : ∃ m', (bench 3 1).manager.loadGeoInfo geo = some m' := ⟨_, rfl⟩
  have geometry := loaded_of_load _ _ _ m' configured.loaded loaded
  have shared : SharedBy (bench 3 1).manager (plainSetup m') := by
    rw [DBManager.loadGeoInfo] at loaded
    exact (DBManager.load_geo_planes geo _ 0 _ m' loaded).1
  have placed := reachable_placed (bench 3 1) d' (ensures_ok _ d' st _
    (@digitize_event_reachable ℝ _ (Rng.scripted ℝ) (bench 3 1) d reachable crossingData [] [1]) ran)
  obtain ⟨e, decoded, _⟩ := plain_setup_decodes m' d'.fEvent _
    (placed_event_decodes _ _ (bench 3 1) configured (plainSetup m') shared stored_slots_keep point_sort_sorts d'.fEvent placed tracks)
  exact ⟨d', m', e, decoded, records, fun record member => digitized_truth_read_back (bench 3 1) (bench_limits 1) _ _ configured
    (plainSetup m') shared geometry stored_slots_keep point_sort_sorts 2 (Int.le_refl 2) [⟨11, 1⟩]
    (fun signal member => by rw [List.mem_singleton.mp member]; decide) d reachable crossingData [] [1] st (crossing_fits _) d' ran room
    e decoded record member⟩

end Solgem
