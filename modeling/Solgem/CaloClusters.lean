import Mathlib.Data.Real.Basic
import Solgem.ClusterLoop
import Solgem.Draw
import Solgem.Lib.Runs

set_option autoImplicit false

namespace Solgem

open Lib

variable {F : Type} [Arith F] {rng : Rng F}

-- One entry of the hit arrays of the ECal and HCal trees, and of the CDet tree.
structure CellHit (F : Type) where
  sumedep : F
  xcell : F
  ycell : F

structure CDetHit (F : Type) extends CellHit F where
  col : Int
  plane : Int

-- The energy of a hit from its number of photoelectrons; none below threshold.
def drawEdep (Npe_Edep sumedep : F) : Draw rng (Option F) := do
  let npe ← drawPoisson .fR (Npe_Edep * sumedep)
  if (Arith.ofInt npe : F) < 3.0 then pure none else pure (some (Arith.ofInt npe / Npe_Edep))

def readCells (Npe_Edep : F) : List (CellHit F) → Draw rng (List (CaloHit F))
  | [] => pure []
  | hit :: rest => do
      let edep ← drawEdep Npe_Edep hit.sumedep
      let hits ← readCells Npe_Edep rest
      pure ((edep.map (fun E => (⟨E, hit.xcell, hit.ycell⟩ : CaloHit F))).toList ++ hits)

-- The halves of a CDet plane are told apart by the column number.
def readSlats (Npe_Edep : F) : List (CDetHit F) → Draw rng (List (Int × CaloHit F))
  | [] => pure []
  | hit :: rest => do
      let edep ← drawEdep Npe_Edep hit.sumedep
      let x := hit.xcell + 0.255 * (if (hit.col - 1) % 2 = 0 then 1.0 else -1.0)
      let hits ← readSlats Npe_Edep rest
      pure ((edep.map (fun E => (hit.plane, (⟨E, x, hit.ycell⟩ : CaloHit F)))).toList ++ hits)

def findSeed (hits : List (CaloHit F)) : Option (SeedSearch F) := hits.foldlM SeedSearch.addHit SeedSearch.start

-- The switch over the plane of a CDet hit: any other plane is dropped.
def addSlat (s : SeedSearch F × SeedSearch F) (hit : Int × CaloHit F) : Option (SeedSearch F × SeedSearch F) :=
  if hit.1 = 1 then (s.1.addHit hit.2).map (fun first => (first, s.2))
  else if hit.1 = 2 then (s.2.addHit hit.2).map (fun second => (s.1, second))
  else some s

def findSeeds (hits : List (Int × CaloHit F)) : Option (SeedSearch F × SeedSearch F) :=
  hits.foldlM addSlat (SeedSearch.start, SeedSearch.start)

def GEpECalBlock_size : F := 0.042
def GEpCDetSlat_size : F := 0.005
def HCalBlock_size : F := 0.152

-- The vectors at the exit of the loops, for each of the four detectors.
def clusterGEpECal (hits : List (CaloHit F)) : Option (Vectors F) :=
  (findSeed hits).bind (fun s => grow (GEpECalBlock_size * 1.1) s.vectors)

def clusterCDetPlane1 (hits : List (Int × CaloHit F)) : Option (Vectors F) :=
  (findSeeds hits).bind (fun s => grow (GEpCDetSlat_size * 1.1) s.1.vectors)

def clusterCDetPlane2 (hits : List (Int × CaloHit F)) : Option (Vectors F) :=
  (findSeeds hits).bind (fun s => grow (GEpCDetSlat_size * 1.1) s.2.vectors)

def clusterHCal (hits : List (CaloHit F)) : Option (Vectors F) :=
  (findSeed hits).bind (fun s => growHCal (HCalBlock_size * 1.5) s.vectors.blocks.E.length s.vectors)

-- Energy and energy-weighted sums over a cluster.
def recSums (c : Columns F) : Option (F × F × F) :=
  (List.range c.E.length).foldlM (fun (acc : F × F × F) i =>
    (c.entry i).map (fun h => (acc.1 + h.E, acc.2.1 + h.x * h.E, acc.2.2 + h.y * h.E))) (0.0, 0.0, 0.0)

def recSumsHCal (c : Columns F) : Option (F × F × F) :=
  (List.range c.E.length).foldlM (fun (acc : F × F × F) i =>
    (c.entry i).map (fun h => (acc.1 + h.E, acc.2.1 + -1.0 * h.y * h.E, acc.2.2 + h.x * h.E))) (0.0, 0.0, 0.0)

def totalEdep (hits : List (CaloHit F)) : F := hits.foldl (fun Edep_tot h => Edep_tot + h.E) 0.0

def scintCluster (plane : Int) (v : Vectors F) : Option (ScintCluster F) :=
  (recSums v.clus).map (fun sums => ⟨⟨sums.1, sums.2.1 / sums.1, sums.2.2 / sums.1, 0.0, 0.0, 0.0, 31⟩, plane⟩)

-- The early return below the calorimeter threshold also skips the CDet.
def getGEpECalCluster (caloThreshold : F) (ecal : List (CellHit F)) (cdet : List (CDetHit F)) :
    Draw rng (List (ECalCluster F) × List (ScintCluster F)) := do
  let hits ← readCells 5.38e2 ecal
  let s ← lift (check .badAccess (findSeed hits))
  let (X_max, Y_max) := match s.vectors.clus.x, s.vectors.clus.y with
    | [x], [y] => (x, y)
    | _, _ => (0.0, 0.0)
  if totalEdep hits < caloThreshold then pure ([], [])
  else do
    let v ← lift (check .badAccess (clusterGEpECal hits))
    let (E_rec, X_rec, Y_rec) ← lift (check .badAccess (recSums v.clus))
    let clusters := if caloThreshold < E_rec then [⟨E_rec, X_rec / E_rec, Y_rec / E_rec, X_max, Y_max, 0.0, 12⟩] else []
    let slats ← readSlats 5.634e3 cdet
    let plane1 ← lift (check .badAccess ((clusterCDetPlane1 slats).bind (scintCluster 1)))
    let plane2 ← lift (check .badAccess ((clusterCDetPlane2 slats).bind (scintCluster 2)))
    pure (clusters, [plane1, plane2])

def getHCalCluster (hcal : List (CellHit F)) : Draw rng (List (ECalCluster F)) := do
  let hits ← readCells 5.0e3 hcal
  if (0.01 : F) < totalEdep hits then do
    let v ← lift (check .badAccess (clusterHCal hits))
    let (E_rec, X_rec, Y_rec) ← lift (check .badAccess (recSumsHCal v.clus))
    pure [⟨E_rec, X_rec / E_rec, Y_rec / E_rec, 0.0, 0.0, 0.0, 0⟩]
  else pure []

-- A hit that passes the photoelectron cut has a positive energy.
theorem draw_edep_positive {rng : Rng ℝ} (Npe_Edep sumedep : ℝ) (scale : 0 < Npe_Edep) (st st' : rng.State) (edep : Option ℝ)
    (drawn : drawEdep Npe_Edep sumedep st = .ok (edep, st')) : ∀ E ∈ edep, 0 < E := by
  obtain ⟨npe, after, _, drawn⟩ := (draw_bind_ok _ _ _ _ _).mp drawn
  intro E member
  by_cases low : (Arith.ofInt npe : ℝ) < 3.0
  · rw [if_pos low] at drawn
    obtain ⟨rfl, _⟩ := (draw_pure_ok _ _ _ _).mp drawn
    cases member
  · rw [if_neg low] at drawn
    obtain ⟨rfl, _⟩ := (draw_pure_ok _ _ _ _).mp drawn
    cases member
    have count : (0 : ℝ) < Arith.ofInt npe := by
      norm_num at low
      linarith
    exact div_pos count scale

-- What one detector hit of either reading loop adds.
theorem read_hit_ok {rng : Rng ℝ} {H : Type} (Npe_Edep sumedep : ℝ) (scale : 0 < Npe_Edep) (make : ℝ → H) (rest : Draw rng (List H))
    (st st' : rng.State) (hits : List H)
    (run : (do
      let edep ← drawEdep Npe_Edep sumedep
      let others ← rest
      pure ((edep.map make).toList ++ others) : Draw rng (List H)) st = .ok (hits, st')) :
    ∃ mid others, rest mid = .ok (others, st') ∧ ∀ h ∈ hits, h ∈ others ∨ ∃ E, 0 < E ∧ h = make E := by
  obtain ⟨edep, mid, drawn, run⟩ := (draw_bind_ok _ _ _ _ _).mp run
  obtain ⟨others, last, read, run⟩ := (draw_bind_ok _ _ _ _ _).mp run
  obtain ⟨rfl, rfl⟩ := (draw_pure_ok _ _ _ _).mp run
  refine ⟨mid, others, read, fun h member => ?_⟩
  cases List.mem_append.mp member with
  | inl first =>
      obtain ⟨E, drawnE, made⟩ := Option.map_eq_some_iff.mp (Option.mem_toList.mp first)
      exact .inr ⟨E, draw_edep_positive Npe_Edep sumedep scale st mid edep drawn E drawnE, made.symm⟩
  | inr later => exact .inl later

theorem read_cells_positive {rng : Rng ℝ} (Npe_Edep : ℝ) (scale : 0 < Npe_Edep) (cells : List (CellHit ℝ)) (st st' : rng.State)
    (hits : List (CaloHit ℝ)) (run : readCells Npe_Edep cells st = .ok (hits, st')) : ∀ h ∈ hits, 0 < h.E := by
  induction cells generalizing st hits with
  | nil =>
      obtain ⟨rfl, _⟩ := (draw_pure_ok _ _ _ _).mp run
      exact fun h member => absurd member List.not_mem_nil
  | cons cell rest ih =>
      obtain ⟨mid, others, read, split⟩ := read_hit_ok Npe_Edep _ scale _ _ st st' hits run
      intro h member
      cases split h member with
      | inl later => exact ih mid others read h later
      | inr added =>
          obtain ⟨E, above, rfl⟩ := added
          exact above

theorem read_slats_positive {rng : Rng ℝ} (Npe_Edep : ℝ) (scale : 0 < Npe_Edep) (cells : List (CDetHit ℝ)) (st st' : rng.State)
    (slats : List (Int × CaloHit ℝ)) (run : readSlats Npe_Edep cells st = .ok (slats, st')) : ∀ h ∈ slats, 0 < h.2.E := by
  induction cells generalizing st slats with
  | nil =>
      obtain ⟨rfl, _⟩ := (draw_pure_ok _ _ _ _).mp run
      exact fun h member => absurd member List.not_mem_nil
  | cons cell rest ih =>
      obtain ⟨mid, others, read, split⟩ := read_hit_ok Npe_Edep _ scale _ _ st st' slats run
      intro h member
      cases split h member with
      | inl later => exact ih mid others read h later
      | inr added =>
          obtain ⟨E, above, rfl⟩ := added
          exact above

-- The first of the hits of largest energy.
def FirstMax (hits : List (CaloHit ℝ)) (seed : CaloHit ℝ) : Prop :=
  ∃ before after, hits = before ++ seed :: after ∧ (∀ h ∈ before, h.E < seed.E) ∧ ∀ h ∈ after, h.E ≤ seed.E

-- What the seed search holds once it has read some hits.
def Seeded (hits : List (CaloHit ℝ)) (s : SeedSearch ℝ) : Prop :=
  (hits = [] ∧ s = SeedSearch.start) ∨
    ∃ seed blocks, FirstMax hits seed ∧ s = ⟨seed.E, vectors blocks [seed]⟩ ∧ (seed :: blocks).Perm hits

theorem add_hit_seeded (hits : List (CaloHit ℝ)) (s : SeedSearch ℝ) (seeded : Seeded hits s) (h : CaloHit ℝ)
    (positive : 0 < h.E) : ∃ s', s.addHit h = some s' ∧ Seeded (hits ++ [h]) s' := by
  rcases seeded with ⟨rfl, rfl⟩ | ⟨seed, blocks, ⟨before, after, split, less, atMost⟩, rfl, perm⟩
  · have larger : (SeedSearch.start (F := ℝ)).Edep_Max < h.E := by
      rw [SeedSearch.start]
      norm_num
      exact positive
    have none_yet : ¬ 0 < (SeedSearch.start (F := ℝ)).vectors.clus.E.length := by simp [SeedSearch.start, Columns.empty]
    refine ⟨⟨h.E, vectors [] [h]⟩, ?_, .inr ⟨h, [], ⟨[], [], rfl, by simp, by simp⟩, rfl, List.Perm.refl _⟩⟩
    rw [SeedSearch.addHit, if_pos larger, if_neg none_yet]
    rfl
  · by_cases larger : seed.E < h.E
    · have found : (vectors blocks [seed]).clus.entry 0 = some seed := by rw [vectors, columns_entry]; rfl
      have one : 0 < (vectors blocks [seed]).clus.E.length := by simp [vectors]
      refine ⟨⟨h.E, vectors (blocks ++ [seed]) [h]⟩, ?_, .inr ⟨h, blocks ++ [seed], ?_, rfl, ?_⟩⟩
      · simp only [SeedSearch.addHit, if_pos larger, if_pos one, found, Option.map_some]
        simp only [vectors, columns_push]
        rfl
      · refine ⟨before ++ seed :: after, [], by rw [split], ?_, by simp⟩
        intro other member
        cases List.mem_append.mp member with
        | inl old => exact (less other old).trans larger
        | inr rest =>
            rcases List.mem_cons.mp rest with rfl | late
            · exact larger
            · exact lt_of_le_of_lt (atMost other late) larger
      · have moved : (h :: (blocks ++ [seed])).Perm (h :: (seed :: blocks)) :=
          (List.perm_append_singleton seed blocks).cons h
        exact (moved.trans (perm.cons h)).trans (List.perm_append_singleton h hits).symm
    · refine ⟨⟨seed.E, vectors (blocks ++ [h]) [seed]⟩, ?_, .inr ⟨seed, blocks ++ [h], ?_, rfl, ?_⟩⟩
      · simp only [SeedSearch.addHit, if_neg larger]
        simp only [vectors, columns_push]
      · refine ⟨before, after ++ [h], by rw [split]; simp, less, ?_⟩
        intro other member
        cases List.mem_append.mp member with
        | inl old => exact atMost other old
        | inr new =>
            rw [List.mem_singleton.mp new]
            exact not_lt.mp larger
      · exact perm.append_right [h]

theorem find_seed_seeded (hits : List (CaloHit ℝ)) (positive : ∀ h ∈ hits, 0 < h.E) :
    ∃ s, findSeed hits = some s ∧ Seeded hits s := by
  obtain ⟨s, run, seeded⟩ := run_total (fun s h s' => SeedSearch.addHit s h = some s') Seeded [] hits
    (fun past h s member seeded => add_hit_seeded past s seeded h (positive h member)) SeedSearch.start (.inl ⟨rfl, rfl⟩)
  exact ⟨s, (foldlM_run _ _ _ _).mpr run, seeded⟩

theorem find_seeds_split (hits : List (Int × CaloHit ℝ)) (first second : SeedSearch ℝ)
    (plane1 : findSeed ((hits.filter (fun h => h.1 = 1)).map Prod.snd) = some first)
    (plane2 : findSeed ((hits.filter (fun h => h.1 = 2)).map Prod.snd) = some second) :
    findSeeds hits = some (first, second) := by
  have loop : ∀ (hits : List (Int × CaloHit ℝ)) (s t first second : SeedSearch ℝ),
      ((hits.filter (fun h => h.1 = 1)).map Prod.snd).foldlM SeedSearch.addHit s = some first →
      ((hits.filter (fun h => h.1 = 2)).map Prod.snd).foldlM SeedSearch.addHit t = some second →
      hits.foldlM addSlat (s, t) = some (first, second) := by
    intro hits
    induction hits with
    | nil =>
        intro s t first second left right
        rw [show s = first from Option.some.inj left, show t = second from Option.some.inj right]
        rfl
    | cons hit rest ih =>
        intro s t first second left right
        by_cases one : hit.1 = 1
        · have other : ¬ hit.1 = 2 := by omega
          simp only [List.filter_cons, one, decide_true, if_true, List.map_cons, List.foldlM_cons, Option.bind_eq_bind,
            Option.bind_eq_some_iff] at left
          obtain ⟨mid, added, left⟩ := left
          simp only [List.filter_cons, other, decide_false, Bool.false_eq_true, if_false] at right
          rw [List.foldlM_cons, addSlat, if_pos one, added]
          exact ih mid t first second left right
        · by_cases two : hit.1 = 2
          · simp only [List.filter_cons, two, decide_true, if_true, List.map_cons, List.foldlM_cons, Option.bind_eq_bind,
              Option.bind_eq_some_iff] at right
            obtain ⟨mid, added, right⟩ := right
            simp only [List.filter_cons, one, decide_false, Bool.false_eq_true, if_false] at left
            rw [List.foldlM_cons, addSlat, if_neg one, if_pos two, added]
            exact ih s mid first second left right
          · simp only [List.filter_cons, one, decide_false, Bool.false_eq_true, if_false] at left
            simp only [List.filter_cons, two, decide_false, Bool.false_eq_true, if_false] at right
            rw [List.foldlM_cons, addSlat, if_neg one, if_neg two]
            exact ih s t first second left right
  exact loop hits _ _ first second plane1 plane2

theorem near_self (cut : ℝ) (positive : 0 < cut) (b : CaloHit ℝ) : near cut b b := by
  have zero : Arith.sqrt ((b.x - b.x) * (b.x - b.x) + (b.y - b.y) * (b.y - b.y)) = (0 : ℝ) := by
    rw [sub_self, sub_self, mul_zero, add_zero]
    exact Real.sqrt_zero
  rw [near, zero]
  exact positive

-- The vectors at loop exit: the seed in front of exactly what it reaches, the
-- other hits left over, or nothing at all when there was no hit.
def ClusterOf (cut : ℝ) (hits : List (CaloHit ℝ)) (v : Vectors ℝ) : Prop :=
  (hits = [] ∧ v = vectors [] []) ∨
    ∃ seed blocks rest, FirstMax hits seed ∧ v = vectors blocks (seed :: rest) ∧
      Component (near cut) hits seed blocks (seed :: rest)

theorem cluster_of_closed (cut : ℝ) (positive : 0 < cut) (hits : List (CaloHit ℝ)) (s : SeedSearch ℝ) (seeded : Seeded hits s)
    (run : Vectors ℝ → Option (Vectors ℝ)) (empty : run (vectors [] []) = some (vectors [] []))
    (loops : ∀ blocks seed, s.vectors = vectors blocks [seed] → ∃ blocks' clus',
      run (vectors blocks [seed]) = some (vectors blocks' clus') ∧
        Transfers (near cut) (blocks, [seed]) (blocks', clus') ∧ Closed cut blocks' clus') :
    ∃ v, run s.vectors = some v ∧ ClusterOf cut hits v := by
  rcases seeded with ⟨rfl, rfl⟩ | ⟨seed, blocks, largest, rfl, perm⟩
  · exact ⟨vectors [] [], empty, .inl ⟨rfl, rfl⟩⟩
  · obtain ⟨blocks', clus', completed, transfers, closed⟩ := loops blocks seed rfl
    obtain ⟨rest, extended⟩ := transfers_extend _ _ _ transfers
    have shape : clus' = seed :: rest := extended.symm
    refine ⟨_, completed, .inr ⟨seed, blocks', rest, largest, by rw [shape], ?_⟩⟩
    rw [← shape]
    exact component_of_closed (near cut) (near_self cut positive) hits seed blocks blocks' clus' perm transfers closed

theorem grow_empty (cut : ℝ) : grow cut (vectors [] []) = some (vectors [] []) := by
  have size : (vectors ([] : List (CaloHit ℝ)) []).blocks.E.length = 0 := columns_length []
  have aligned : ((vectors ([] : List (CaloHit ℝ)) []).blocks.aligned && (vectors ([] : List (CaloHit ℝ)) []).clus.aligned) =
      true := rfl
  rw [grow, if_pos aligned, growLoop, size, pass]
  rfl

theorem cluster_of_grow (cut : ℝ) (positive : 0 < cut) (hits : List (CaloHit ℝ)) (s : SeedSearch ℝ)
    (seeded : Seeded hits s) : ∃ v, grow cut s.vectors = some v ∧ ClusterOf cut hits v :=
  cluster_of_closed cut positive hits s seeded (grow cut) (grow_empty cut)
    (fun blocks seed _ => grow_closed cut blocks [seed])

theorem cluster_of_grow_hcal (cut : ℝ) (positive : 0 < cut) (hits : List (CaloHit ℝ)) (s : SeedSearch ℝ)
    (seeded : Seeded hits s) :
    ∃ v, growHCal cut s.vectors.blocks.E.length s.vectors = some v ∧ ClusterOf cut hits v := by
  refine cluster_of_closed cut positive hits s seeded (fun v => growHCal cut v.blocks.E.length v) rfl ?_
  intro blocks seed _
  have size : (vectors blocks [seed]).blocks.E.length = blocks.length := columns_length blocks
  simp only [size]
  refine grow_hcal_closed cut blocks.length blocks [seed] (by simp) ?_
  cases blocks with
  | nil => exact .inr (fun b member => absurd member List.not_mem_nil)
  | cons b rest => exact .inl (Nat.succ_pos _)

def slatsOf (plane : Int) (slats : List (Int × CaloHit ℝ)) : List (CaloHit ℝ) :=
  (slats.filter (fun h => h.1 = plane)).map Prod.snd

-- Every copy of the algorithm ends, reads no entry out of range, and leaves
-- the connected component of the seed.
theorem clusters_are_components (hits : List (CaloHit ℝ)) (slats : List (Int × CaloHit ℝ))
    (positive : ∀ h ∈ hits, 0 < h.E) (positiveSlats : ∀ h ∈ slats, 0 < h.2.E) :
    (∃ v, clusterGEpECal hits = some v ∧ ClusterOf (0.042 * 1.1) hits v) ∧
      (∃ v, clusterCDetPlane1 slats = some v ∧ ClusterOf (0.005 * 1.1) (slatsOf 1 slats) v) ∧
      (∃ v, clusterCDetPlane2 slats = some v ∧ ClusterOf (0.005 * 1.1) (slatsOf 2 slats) v) ∧
      ∃ v, clusterHCal hits = some v ∧ ClusterOf (0.152 * 1.5) hits v := by
  have positiveOf : ∀ plane, ∀ h ∈ slatsOf plane slats, 0 < h.E := by
    intro plane h member
    obtain ⟨slat, kept, rfl⟩ := List.mem_map.mp member
    exact positiveSlats slat (List.mem_filter.mp kept).1
  obtain ⟨s, found, seeded⟩ := find_seed_seeded hits positive
  obtain ⟨first, found1, seeded1⟩ := find_seed_seeded (slatsOf 1 slats) (positiveOf 1)
  obtain ⟨second, found2, seeded2⟩ := find_seed_seeded (slatsOf 2 slats) (positiveOf 2)
  have seeds := find_seeds_split slats first second found1 found2
  rw [clusterGEpECal, clusterCDetPlane1, clusterCDetPlane2, clusterHCal, found, seeds]
  have ecal : (0 : ℝ) < GEpECalBlock_size * 1.1 := by norm_num [GEpECalBlock_size]
  have cdet : (0 : ℝ) < GEpCDetSlat_size * 1.1 := by norm_num [GEpCDetSlat_size]
  have hcal : (0 : ℝ) < HCalBlock_size * 1.5 := by norm_num [HCalBlock_size]
  exact ⟨cluster_of_grow _ ecal hits s seeded, cluster_of_grow _ cdet _ first seeded1,
    cluster_of_grow _ cdet _ second seeded2, cluster_of_grow_hcal _ hcal hits s seeded⟩

theorem clusters_are_components_chain :
    let hits : List (CaloHit ℝ) := [⟨1, 0.04, 0⟩, ⟨3, 0, 0⟩, ⟨2, 0.08, 0⟩, ⟨2, 0.5, 0⟩]
    (∃ v, clusterGEpECal hits = some v ∧ ClusterOf (0.042 * 1.1) hits v) ∧
      (∃ v, clusterCDetPlane1 (hits.map (fun h => (1, h))) = some v ∧
        ClusterOf (0.005 * 1.1) (slatsOf 1 (hits.map (fun h => (1, h)))) v) ∧
      (∃ v, clusterCDetPlane2 (hits.map (fun h => (1, h))) = some v ∧
        ClusterOf (0.005 * 1.1) (slatsOf 2 (hits.map (fun h => (1, h)))) v) ∧
      ∃ v, clusterHCal hits = some v ∧ ClusterOf (0.152 * 1.5) hits v := by
  intro hits
  have positive : ∀ h ∈ hits, 0 < h.E := by
    intro h member
    simp only [hits, List.mem_cons, List.not_mem_nil, or_false] at member
    rcases member with rfl | rfl | rfl | rfl <;> norm_num
  refine clusters_are_components hits (hits.map (fun h => (1, h))) positive ?_
  intro slat member
  obtain ⟨h, listed, rfl⟩ := List.mem_map.mp member
  exact positive h listed

end Solgem
