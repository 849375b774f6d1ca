import Solgem.Bench
import Solgem.CrossLedger
import Solgem.Lib.Listing
import Solgem.PlaneHistory

set_option autoImplicit false

namespace Solgem

open Lib DigitizedPlane Digitizer

variable {F : Type} [Arith F] {rng : Rng F}

-- The addresses of the strips of projection ip whose record lists a cluster.
def readers (su : Setup F) (fDP : Nat → Fin 2 → DigitizedPlane F) (records : List (DigiGEMStrip F)) (ip : Fin 2) (id : Int) :
    List (Nat × Fin 2 × Nat) :=
  (((strips su fDP).zip records).filter (fun pair => decide (pair.1.2.1 = ip ∧ id ∈ pair.2.fClusters))).map Prod.fst

-- Records refer to clusters, and clusters describe the records, as the
-- decoder relies on.
structure CrossReferenced (su : Setup F) (d : Digitizer F) : Prop where
  refs : ∀ r ∈ d.fEvent.fGEMStrips, ∀ id ∈ r.fClusters, ∃ (iclust : Nat) (c : GEMCluster F), id - 1 = iclust ∧
    d.fEvent.fGEMClust[iclust]? = some c ∧ c.fID = iclust + 1 ∧ c.fPlane = r.fPlane ∧ c.fModule = r.fModule ∧
    c.fSector = r.fSector
  lengths : ∀ r ∈ d.fEvent.fGEMStrips, r.fStripWeightInCluster.length = r.fClusters.length ∧
    r.fClusterRatio.length = r.fNsamp ∧ ∀ ratio ∈ r.fClusterRatio, ratio.length = r.fClusters.length
  once : ∀ r ∈ d.fEvent.fGEMStrips, r.fClusters.Nodup
  spread : ∀ i c, d.fEvent.fGEMClust[i]? = some c → ∃ fSource h ch fdh t0, su.spec[h.fGem]? = some ch ∧
    c = su.treeHit fSource h ch fdh i t0 ∧ ∀ ip, 0 < c.fSize ip → ∃ listing : List Nat,
      listing.Pairwise (· < ·) ∧ c.fSize ip = listing.length ∧ (∃ s, listing.head? = some s ∧ c.fStart ip = s) ∧
      readers su d.fDP d.fEvent.fGEMStrips ip (i + 1) = listing.map (fun s => (h.fGem, ip, s))

omit [Arith F] in
theorem strips_filter_chamber (su : Setup F) (fDP : Nat → Fin 2 → DigitizedPlane F) (ich : Nat) (chamber : ich < su.fNChambers)
    (ip : Fin 2) (listing : List Nat) (ascending : listing.Pairwise (· < ·)) (inside : ∀ s ∈ listing, s < (fDP ich ip).fNStrips) :
    (strips su fDP).filter (fun a => decide (a.1 = ich ∧ a.2.1 = ip ∧ a.2.2 ∈ listing)) =
      listing.map (fun s => (ich, ip, s)) := by
  simp only [strips, List.filter_flatMap, List.filter_map, Function.comp_def]
  rw [flat_map_only _ ich _ List.nodup_range (List.mem_range.mpr chamber),
    flat_map_only _ ip _ (List.nodup_finRange 2) (List.mem_finRange ip)]
  · simp only [true_and]
    rw [range_filter_ascending listing ascending _ inside]
  · intro other _ different
    simp [different]
  · intro other _ different
    simp [different]

theorem readers_of_shows (su : Setup F) (fDP : Nat → Fin 2 → DigitizedPlane F) (records : List (DigiGEMStrip F))
    (shows : Shows rng su fDP records) (ip : Fin 2) (id : Int) :
    readers su fDP records ip id =
      (strips su fDP).filter (fun a => decide (a.2.1 = ip ∧ id ∈ (fDP a.1 a.2.1).fStripClusters a.2.2)) :=
  zip_filter_left (Readout rng su fDP) (fun a r => decide (a.2.1 = ip ∧ id ∈ r.fClusters)) _
    (fun _ _ readout => by rw [readout.clusters]) _ _ shows

section
variable (su : Setup F) (d : Digitizer F) (ledgers : Nat → Fin 2 → List (Contribution F)) (ledgered : Ledgered su ledgers d)
include ledgered

theorem listed_iff (ic : Nat) (ip : Fin 2) (s : Nat) (id : Int) :
    id ∈ (d.fDP ic ip).fStripClusters s ↔ s ∈ listedStrips id (ledgers ic ip) := by
  rw [(ledgered.represents ic ip).clusters, ← List.count_pos_iff, listed_cluster_count, List.count_pos_iff]

theorem listed_owner (room : d.fEvent.fGEMClust.length ≤ 32767) (ic : Nat) (ip : Fin 2) (s : Nat) (id : Int)
    (listed : id ∈ (d.fDP ic ip).fStripClusters s) :
    ∃ (i : Nat) (c : GEMCluster F) (h : GEMHitData F), id = i + 1 ∧ d.fEvent.fGEMClust[i]? = some c ∧ Placed su ledgers i c h ∧
      ic = h.fGem := by
  obtain ⟨known, placed⟩ := ledgered.indexed room
  have member := (listed_iff su d ledgers ledgered ic ip s id).mp listed
  have bound := known ic ip id (List.ne_nil_of_mem member)
  have below : (id - 1).toNat < d.fEvent.fGEMClust.length := by omega
  have index : id = (id - 1).toNat + 1 := by omega
  obtain ⟨h, owner⟩ := placed (id - 1).toNat _ (List.getElem?_eq_getElem below)
  refine ⟨(id - 1).toNat, _, h, index, List.getElem?_eq_getElem below, owner, ?_⟩
  by_contra other
  have absent := owner.away ic ip other
  rw [← index] at absent
  rw [absent] at member
  exact absurd member List.not_mem_nil

theorem clusters_once (room : d.fEvent.fGEMClust.length ≤ 32767) (ic : Nat) (ip : Fin 2) (s : Nat) :
    ((d.fDP ic ip).fStripClusters s).Nodup := by
  refine List.nodup_iff_count_le_one.mpr (fun id => ?_)
  by_cases listed : id ∈ (d.fDP ic ip).fStripClusters s
  · obtain ⟨i, c, h, rfl, _, owner, rfl⟩ := listed_owner su d ledgers ledgered room ic ip s id listed
    have distinct : (listedStrips (i + 1) (ledgers h.fGem ip)).Nodup := (owner.struck.ascending ip).imp Nat.ne_of_lt
    rw [(ledgered.represents h.fGem ip).clusters, listed_cluster_count]
    exact List.nodup_iff_count_le_one.mp distinct s
  · rw [List.count_eq_zero_of_not_mem listed]
    exact Nat.zero_le 1

theorem record_lengths (ic : Nat) (ip : Fin 2) (s : Nat) (r : DigiGEMStrip F) (readout : Readout rng su d.fDP (ic, ip, s) r) :
    r.fStripWeightInCluster.length = r.fClusters.length ∧ r.fClusterRatio.length = r.fNsamp ∧
      ∀ ratio ∈ r.fClusterRatio, ratio.length = r.fClusters.length := by
  have represents := ledgered.represents ic ip
  rw [readout.weights, readout.clusters, readout.ratio, represents.weights, represents.clusters]
  refine ⟨listed_length s _ _ _ (fun c => by simp [Contribution.weight, Contribution.cluster]), by simp, ?_⟩
  intro ratio member
  obtain ⟨k, sample, rfl⟩ := List.mem_map.mp member
  have below : k < (d.fDP ic ip).fNSamples := by
    have bound := List.mem_range.mp sample
    have width : r.fNsamp = min MC_MAXSAMP (d.fDP ic ip).fNSamples := readout.nsamp
    omega
  rw [represents.clusterADC s k below]
  exact listed_length s _ _ _ (fun c => by simp [Contribution.clusterADC, Contribution.cluster])

end

theorem cross_referenced_of_shows (su : Setup F) (d : Digitizer F) (ledgers : Nat → Fin 2 → List (Contribution F))
    (ledgered : Ledgered su ledgers d) (room : d.fEvent.fGEMClust.length ≤ 32767) (records : List (DigiGEMStrip F))
    (shows : Shows rng su d.fDP records) :
    CrossReferenced su { d with fEvent := { d.fEvent with fGEMStrips := records }, fFilledStrips := true } := by
  refine ⟨fun r member id listed => ?_, fun r member => ?_, fun r member => ?_, fun i c recorded => ?_⟩
  · obtain ⟨⟨ic, ip, s⟩, _, readout⟩ := forall₂_mem_right _ _ _ shows r member
    rw [readout.clusters] at listed
    obtain ⟨i, c, h, rfl, found, owner, rfl⟩ := listed_owner su d ledgers ledgered room ic ip s id listed
    obtain ⟨fSource, ch, fdh, t0, _, hit⟩ := owner.hit
    have below := (List.getElem?_eq_some_iff.mp found).1
    refine ⟨i, c, by omega, found, ?_, ?_, ?_, ?_⟩
    · rw [hit, Setup.treeHit]
      dsimp only
      exact int16_exact _ (by omega) (by omega)
    · rw [hit, readout.plane, Setup.treeHit]
    · rw [hit, readout.module, Setup.treeHit]
    · rw [hit, readout.sector, Setup.treeHit]
  · obtain ⟨⟨ic, ip, s⟩, _, readout⟩ := forall₂_mem_right _ _ _ shows r member
    exact record_lengths su d ledgers ledgered ic ip s r readout
  · obtain ⟨⟨ic, ip, s⟩, _, readout⟩ := forall₂_mem_right _ _ _ shows r member
    rw [readout.clusters]
    exact clusters_once su d ledgers ledgered room ic ip s
  · obtain ⟨h, owner⟩ := (ledgered.indexed room).placed i c recorded
    obtain ⟨fSource, ch, fdh, t0, chamber, hit⟩ := owner.hit
    refine ⟨fSource, h, ch, fdh, t0, chamber, hit, fun ip positive => ⟨_, owner.struck.ascending ip, owner.struck.size ip,
      owner.struck.start ip positive, ?_⟩⟩
    have within : h.fGem < su.fNChambers := (List.getElem?_eq_some_iff.mp chamber).1
    have inside : ∀ s ∈ listedStrips (i + 1) (ledgers h.fGem ip), s < (d.fDP h.fGem ip).fNStrips := by
      intro s member
      rw [(ledgered.shape h.fGem ip).strips]
      exact owner.struck.inside ip s member
    refine (readers_of_shows su d.fDP records shows ip (i + 1)).trans ?_
    rw [← strips_filter_chamber su d.fDP h.fGem within ip _ (owner.struck.ascending ip) inside]
    refine List.filter_congr (fun a _ => decide_eq_decide.mpr ?_)
    obtain ⟨ic, ip', s⟩ := a
    rw [listed_iff su d ledgers ledgered]
    constructor
    · rintro ⟨rfl, member⟩
      have here : ic = h.fGem := by
        by_contra other
        rw [owner.away ic _ other] at member
        exact absurd member List.not_mem_nil
      exact ⟨here, rfl, here ▸ member⟩
    · rintro ⟨here, same, member⟩
      exact ⟨same, here ▸ same ▸ member⟩

theorem cross_referenced_empty (su : Setup F) (d : Digitizer F) (clusters : d.fEvent.fGEMClust = [])
    (records : d.fEvent.fGEMStrips = []) : CrossReferenced su d := by
  have none : ∀ r, r ∉ d.fEvent.fGEMStrips := by
    rw [records]
    exact fun _ => List.not_mem_nil
  refine ⟨fun r member => absurd member (none r), fun r member => absurd member (none r),
    fun r member => absurd member (none r), fun i c recorded => ?_⟩
  rw [clusters] at recorded
  cases recorded

-- An event before FillTree: nothing was recorded while the flag is still set.
def Digitized (su : Setup F) (d : Digitizer F) : Prop :=
  (∃ ledgers, Ledgered su ledgers d) ∧
    (d.fFilledStrips = true → d.fEvent.fGEMClust = [] ∧ d.fEvent.fGEMStrips = [])

theorem digitized_clear_all (su : Setup F) (d : Digitizer F) (steady : Steady su d) : Digitized su d.clearAll := by
  have planes := clear_all_planes su d steady
  refine ⟨⟨fun _ _ => [], steady.idle, fun ic ip => ?_, fun ic ip => ?_, fun _ => ⟨?_, ?_⟩⟩, fun _ => ⟨rfl, rfl⟩⟩
  · rw [planes]
    exact ⟨rfl, rfl, rfl⟩
  · refine represents_clear (d.fDP ic ip) ?_
    rw [(steady.shape ic ip).level]
    exact Int.le_refl 0
  · exact fun _ _ _ listed => absurd rfl listed
  · intro i c recorded
    cases recorded

theorem additive_digitize_digitized (su : Setup F) (small : ∀ ch ∈ su.spec, ∀ ip, (ch.fPlanes ip).fNStrips ≤ 32767)
    (d : Digitizer F) (gdata : SimHitData F) (st : rng.State) (fit : HitsMeet rng su (AvalancheFits rng su) d gdata st)
    (digitized : Digitized su d) :
    Ensures (fun fault => fault = .avaModel ∨ fault = .badAccess) (fun d' _ => Digitized su d')
      ((d.additiveDigitize su gdata : Draw rng _) st) := by
  refine ensures_mono _ _ ?_ _ (additive_digitize_along su d gdata st _ fit (fun _ d => ∃ ledgers, Ledgered su ledgers d)
    digitized.1 (fun trigger_jitter _ h d st _ fit kept => digitize_hit_ledgered su small gdata.fSource trigger_jitter d h st fit kept))
  rintro d' _ (⟨_, same⟩ | ⟨_, looped, ⟨ledgers, kept⟩, cleared⟩)
  · rw [same]
    exact digitized
  · rw [cleared]
    exact ⟨⟨ledgers, kept.idle, kept.shape, kept.represents, kept.indexed⟩, fun flag => Bool.noConfusion flag⟩

-- One event: Digitize, any number of AdditiveDigitize calls, FillTree.
def digitizeEvent (su : Setup F) (d : Digitizer F) (gdata : SimHitData F) (more : List (SimHitData F)) :
    Draw rng (Digitizer F) := do
  let d ← d.digitize su gdata
  let d ← more.foldlM (additiveDigitize su) d
  d.fillTree su

-- The limits of one event that the program's own types set.
structure Limits (su : Setup F) : Prop where
  samples : 1 ≤ su.par.fEleSamplingPoints ∧ su.par.fEleSamplingPoints ≤ 6
  strips : ∀ ch ∈ su.spec, ∀ ip, (ch.fPlanes ip).fNStrips ≤ 32767

theorem bench_limits (steps : Nat) : Limits (bench 3 steps) := by
  refine ⟨(by decide : (1 : Nat) ≤ 1 ∧ 1 ≤ 6), fun ch member ip => ?_⟩
  rw [List.mem_singleton.mp member]
  rcases projections ip with rfl | rfl
  · exact (by decide : (3 : Int) ≤ 32767)
  · exact (by decide : (3 : Int) ≤ 32767)

end Solgem
