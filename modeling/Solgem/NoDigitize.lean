import Solgem.Bench
import Solgem.DigitizerShape

set_option autoImplicit false

namespace Solgem

open Lib DigitizedPlane Digitizer

variable {F : Type} [Arith F] {rng : Rng F}

-- The clusters of the hits with a valid chamber, in order, without avalanche.
def Setup.plainClusters (su : Setup F) (fSource : Int) (hits : List (GEMHitData F)) : List (GEMCluster F) :=
  (hits.filterMap (fun h => (su.spec[h.fGem]?).map (fun ch => (h, ch)))).zipIdx.map (fun hit =>
    su.treeHit fSource hit.1.1 hit.1.2 none hit.2 0.0)

theorem plain_clusters_length (su : Setup F) (fSource : Int) (hits : List (GEMHitData F)) :
    (su.plainClusters fSource hits).length = hits.countP (fun h => h.fGem < su.fNChambers) := by
  rw [Setup.plainClusters, List.length_map, List.length_zipIdx, List.length_filterMap_eq_countP]
  congr 1
  funext h
  rw [Bool.eq_iff_iff, decide_eq_true_iff]
  simp [Setup.fNChambers]

theorem plain_clusters_append (su : Setup F) (fSource : Int) (hits : List (GEMHitData F)) (h : GEMHitData F) :
    su.plainClusters fSource (hits ++ [h]) = su.plainClusters fSource hits ++
      ((su.spec[h.fGem]?).map (fun ch =>
        su.treeHit fSource h ch none (su.plainClusters fSource hits).length 0.0)).toList := by
  simp only [Setup.plainClusters, List.filterMap_append, List.zipIdx_append, List.map_append, List.length_map,
    List.length_zipIdx]
  cases found : su.spec[h.fGem]? with
  | none => simp [found]
  | some ch => simp [found]

theorem record_tree_hits_clusters (su : Setup F) (fSource : Int) (hits : List (GEMHitData F)) (d : Digitizer F)
    (idle : d.fdh = none) (empty : d.fEvent.fGEMClust = []) :
    (hits.foldl (recordTreeHit su fSource) d).fEvent.fGEMClust = su.plainClusters fSource hits := by
  refine (foldl_invariant _ (fun done acc => acc.fEvent.fGEMClust = su.plainClusters fSource done ∧ acc.fdh = none) []
    hits ?_ d ⟨empty, idle⟩).1
  rintro done h acc _ ⟨recorded, released⟩
  rw [recordTreeHit, plain_clusters_append]
  cases found : su.spec[h.fGem]? with
  | none => exact ⟨by simpa using recorded, released⟩
  | some ch =>
      simp only [set_tree_hit_state]
      refine ⟨?_, released⟩
      simp only [SimEvent.recordHit, released, recorded, Option.map_some, Option.toList_some]

-- Strip records without a signal or a cluster of an earlier event: they are
-- what planes that were never used give with the noise drawn here.
structure Forgotten (rng : Rng F) (su : Setup F) (st st' : rng.State) (records : List (DigiGEMStrip F)) :
    Prop where
  clusters : ∀ record ∈ records, record.fClusters = []
  type : ∀ record ∈ records, record.fSigType = 0
  noise : ((strips su su.freshPlane).mapM (setTreeStrip su su.freshPlane) : Draw rng _) st = .ok (records, st')

theorem planes_fresh_of_unlisted (su : Setup F) (d : Digitizer F) (steady : Steady su d)
    (unlisted : ∀ ic < su.fNChambers, ∀ ip, ∀ s < (d.fDP ic ip).fNStrips, (d.fDP ic ip).fStripClusters s = []) :
    d.fDP = su.freshPlane := by
  funext ic ip
  refine (steady.quiet ic ip).resolve_right ?_
  rintro ⟨s, below, some_cluster⟩
  by_cases chamber : ic < su.fNChambers
  · exact some_cluster (unlisted ic chamber ip s below)
  · -- A chamber that does not exist has no strip.
    have missing : su.spec[ic]? = none := List.getElem?_eq_none (Nat.le_of_not_lt chamber)
    rw [(steady.shape ic ip).strips, Setup.freshPlane, missing] at below
    exact absurd below (Nat.not_lt_zero s)

theorem no_digitize_records (su : Setup F) (d d' : Digitizer F) (gdata : SimHitData F) (st st' : rng.State)
    (ran : (d.noDigitize su gdata : Draw rng _) st = .ok (d', st')) :
    d'.fEvent.fGEMClust =
        (gdata.fHitData.foldl (recordTreeHit su gdata.fSource) { d with fEvent := d.fEvent.clear }).fEvent.fGEMClust ∧
      ((strips su d.fDP).mapM (setTreeStrip su d.fDP) : Draw rng _) st = .ok (d'.fEvent.fGEMStrips, st') ∧
      Shows rng su d.fDP d'.fEvent.fGEMStrips := by
  have planes := (record_tree_hits_frame su gdata.fSource gdata.fHitData { d with fEvent := d.fEvent.clear }).1
  obtain ⟨records, read, result⟩ := set_tree_strips_ok su _ d' st st' ran
  rw [planes] at read
  rw [result]
  exact ⟨rfl, read, shows_of_read su d.fDP records st st' read⟩

-- NoDigitize records one cluster for every hit with a valid chamber. Its strip
-- list forgets the earlier events exactly when no plane lists a cluster.
theorem no_digitize_forgets_iff (rng : Rng F) (su : Setup F) (d d' : Digitizer F) (reachable : Reachable rng su d)
    (gdata : SimHitData F) (st st' : rng.State) (ran : (d.noDigitize su gdata : Draw rng _) st = .ok (d', st')) :
    d'.fEvent.fGEMClust = su.plainClusters gdata.fSource gdata.fHitData ∧
      d'.fEvent.fGEMClust.length = gdata.fHitData.countP (fun h => h.fGem < su.fNChambers) ∧
      (Forgotten rng su st st' d'.fEvent.fGEMStrips ↔
        ∀ ic < su.fNChambers, ∀ ip, ∀ s < (d.fDP ic ip).fNStrips, (d.fDP ic ip).fStripClusters s = []) := by
  have steady := reachable_steady su d reachable
  obtain ⟨clusters, read, shows⟩ := no_digitize_records su d d' gdata st st' ran
  have recorded : d'.fEvent.fGEMClust = su.plainClusters gdata.fSource gdata.fHitData :=
    clusters.trans (record_tree_hits_clusters su gdata.fSource gdata.fHitData _ steady.idle rfl)
  refine ⟨recorded, by rw [recorded, plain_clusters_length], ?_⟩
  constructor
  · intro forgotten ic chamber ip s below
    -- The record of this strip is in the list, with the clusters of the plane.
    obtain ⟨record, member, readout⟩ :=
      forall₂_mem_left _ _ _ shows (ic, ip, s) ((mem_strips su d.fDP (ic, ip, s)).mpr ⟨chamber, below⟩)
    rw [← readout.clusters]
    exact forgotten.clusters record member
  · intro unlisted
    have fresh := planes_fresh_of_unlisted su d steady unlisted
    rw [fresh] at shows read
    refine ⟨fun record member => ?_, fun record member => ?_, read⟩
    · obtain ⟨strip, _, readout⟩ := forall₂_mem_right _ _ _ shows record member
      exact readout.clusters
    · obtain ⟨strip, _, readout⟩ := forall₂_mem_right _ _ _ shows record member
      exact readout.type

theorem no_digitize_forgets_iff_crossing :
    let d := Digitizer.new (bench 1 1) unwritten none
    ∃ d', (d.noDigitize (bench 1 1) crossingData : Draw (Rng.scripted ℝ) _) [] = .ok (d', []) ∧
      d'.fEvent.fGEMClust = (bench 1 1).plainClusters crossingData.fSource crossingData.fHitData ∧
      d'.fEvent.fGEMClust.length = crossingData.fHitData.countP (fun h => h.fGem < (bench 1 1).fNChambers) ∧
      (Forgotten (Rng.scripted ℝ) (bench 1 1) [] [] d'.fEvent.fGEMStrips ↔
        ∀ ic < (bench 1 1).fNChambers, ∀ ip, ∀ s < (d.fDP ic ip).fNStrips, (d.fDP ic ip).fStripClusters s = []) :=
  ⟨_, rfl, no_digitize_forgets_iff (Rng.scripted ℝ) (bench 1 1) _ _ (Reachable.init unwritten none) crossingData [] [] rfl⟩

-- The strips of a digitized hit are still there when NoDigitize runs next.
theorem no_digitize_keeps_strips :
    ∃ d d' st, Reachable (Rng.scripted ℝ) (bench 3 1) d ∧
      (d.noDigitize (bench 3 1) ⟨0, 0, 0, []⟩ : Draw (Rng.scripted ℝ) _) [] = .ok (d', st) ∧
      ¬ Forgotten (Rng.scripted ℝ) (bench 3 1) [] st d'.fEvent.fGEMStrips := by
  obtain ⟨vv, d, digitized, struck⟩ := bench_one_ion 1 (by decide) (by decide) unwritten none
  have reachable : Reachable (Rng.scripted ℝ) (bench 3 1) d :=
    Reachable.call _ d (.digitize crossingData) [1] [] (Reachable.init unwritten none) digitized
  have small : (∃ strip ∈ strips (bench 3 1) d.fDP, 32768 ≤ strip.2.2) → False := by
    rintro ⟨strip, member, large⟩
    obtain ⟨chamber, below⟩ := (mem_strips (bench 3 1) d.fDP strip).mp member
    rw [Nat.lt_one_iff.mp chamber, bench_hit_strips 1 vv d struck] at below
    omega
  obtain ⟨d', st, ran, _⟩ := ensures_total _ _
    (@set_tree_strips_shows ℝ _ (Rng.scripted ℝ) _ (bench 3 1) { d with fEvent := d.fEvent.clear } small [])
  refine ⟨d, d', st, reachable, ran, fun forgotten => ?_⟩
  obtain ⟨_, _, shows⟩ := @no_digitize_records ℝ _ (Rng.scripted ℝ) (bench 3 1) d d' ⟨0, 0, 0, []⟩ [] st ran
  obtain ⟨below, listed⟩ := bench_hit_listed 1 vv d struck 0 0 (by decide)
  obtain ⟨record, member, readout⟩ := forall₂_mem_left _ _ _ shows (0, 0, ((vv 0).getIdx 0).toNat)
    ((mem_strips (bench 3 1) d.fDP _).mpr ⟨Nat.zero_lt_one, by rw [bench_hit_strips 1 vv d struck]; exact below⟩)
  have kept : 1 ∈ record.fClusters := readout.clusters.symm ▸ listed
  rw [forgotten.clusters record member] at kept
  exact absurd kept List.not_mem_nil

end Solgem
