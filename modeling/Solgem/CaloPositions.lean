import Mathlib.Algebra.BigOperators.Group.List.Basic
import Mathlib.Algebra.Order.BigOperators.Group.List
import Solgem.CaloClusters
import Solgem.Lib.Listing

set_option autoImplicit false

namespace Solgem

open Lib

section
variable {F : Type} [Arith F] {rng : Rng F}

-- The hits of the preshower and of the shower, smeared one after another.
def smearCells (Npe_Edep sigma_Npe_Edep : F) : List (CellHit F) → Draw rng (List (CaloHit F))
  | [] => pure []
  | hit :: rest => do
      let npe ← drawGaus .fR (Npe_Edep * hit.sumedep) (sigma_Npe_Edep * hit.sumedep)
      let hits ← smearCells Npe_Edep sigma_Npe_Edep rest
      pure (⟨npe / Npe_Edep, hit.xcell, hit.ycell⟩ :: hits)

structure BBMax (F : Type) where
  Edep_PS_max : F
  Edep_SH_max : F
  EdepXmax : F
  EdepYmax : F

def BBMax.addPS (s : BBMax F) (h : CaloHit F) : BBMax F :=
  if s.Edep_PS_max < h.E then { s with Edep_PS_max := h.E, EdepYmax := h.y } else s

-- A shower block takes over y only when it is above the preshower as well.
def BBMax.addSH (s : BBMax F) (h : CaloHit F) : BBMax F :=
  if s.Edep_SH_max < h.E then
    { s with
      Edep_SH_max := h.E
      EdepXmax := h.x
      EdepYmax := if s.Edep_PS_max < h.E then h.y else s.EdepYmax }
  else s

def bbMax (ps sh : List (CaloHit F)) : BBMax F := sh.foldl BBMax.addSH (ps.foldl BBMax.addPS ⟨0.0, 0.0, 0.0, 0.0⟩)

def BBECalBlock_size : F := 0.085

def inCrown (cell max : F) : Bool := decide (Arith.abs (cell - max) ≤ BBECalBlock_size * 2.0 + 1.0e-2)

structure BBSums (F : Type) where
  E_rec : F
  E_rec_SH : F
  X_rec : F
  Y_rec : F

def BBMax.addPSBlock (s : BBMax F) (r : BBSums F) (h : CaloHit F) : BBSums F :=
  if inCrown h.y s.EdepYmax then { r with E_rec := r.E_rec + h.E } else r

def BBMax.addSHBlock (s : BBMax F) (r : BBSums F) (h : CaloHit F) : BBSums F :=
  if inCrown h.x s.EdepXmax && inCrown h.y s.EdepYmax then
    ⟨r.E_rec + h.E, r.E_rec_SH + h.E, r.X_rec + h.E * -1.0 * h.y, r.Y_rec + h.E * h.x⟩
  else r

def bbSums (ps sh : List (CaloHit F)) : BBSums F :=
  let s := bbMax ps sh
  sh.foldl s.addSHBlock (ps.foldl s.addPSBlock ⟨0.0, 0.0, 0.0, 0.0⟩)

def bbClusters (caloThreshold : F) (ps sh : List (CaloHit F)) : List (ECalCluster F) :=
  let r := bbSums ps sh
  if caloThreshold < r.E_rec then [⟨r.E_rec, r.X_rec / r.E_rec_SH, r.Y_rec / r.E_rec_SH, 0.0, 0.0, 0.0, 10⟩] else []

def getBBECalCluster (caloThreshold : F) (ps sh : List (CellHit F)) : Draw rng (List (ECalCluster F)) := do
  let psHits ← smearCells 1.550e3 1.58e2 ps
  let shHits ← smearCells 2.335e3 1.47e2 sh
  pure (bbClusters caloThreshold psHits shHits)

end

-- Coordinates that are the energy-weighted mean of some blocks, with a weight
-- to divide by.
structure WeightedMean (px py : CaloHit ℝ → ℝ) (blocks : List (CaloHit ℝ)) (X Y : ℝ) : Prop where
  positive : 0 < (blocks.map CaloHit.E).sum
  x : X = (blocks.map (fun b => px b * b.E)).sum / (blocks.map CaloHit.E).sum
  y : Y = (blocks.map (fun b => py b * b.E)).sum / (blocks.map CaloHit.E).sum

noncomputable def psWindow (ps sh : List (CaloHit ℝ)) : List (CaloHit ℝ) :=
  ps.filter (fun h => inCrown h.y (bbMax ps sh).EdepYmax)

noncomputable def shWindow (ps sh : List (CaloHit ℝ)) : List (CaloHit ℝ) :=
  sh.filter (fun h => inCrown h.x (bbMax ps sh).EdepXmax && inCrown h.y (bbMax ps sh).EdepYmax)

theorem ps_sums (s : BBMax ℝ) (ps : List (CaloHit ℝ)) (r : BBSums ℝ) :
    ps.foldl s.addPSBlock r =
      { r with E_rec := r.E_rec + ((ps.filter (fun h => inCrown h.y s.EdepYmax)).map CaloHit.E).sum } := by
  induction ps generalizing r with
  | nil => simp
  | cons h rest ih =>
      rw [List.foldl_cons, ih, BBMax.addPSBlock]
      cases near : inCrown h.y s.EdepYmax with
      | true => simp [near, add_assoc]
      | false => simp [near]

theorem sh_sums (s : BBMax ℝ) (sh : List (CaloHit ℝ)) (r : BBSums ℝ) :
    let near := sh.filter (fun h => inCrown h.x s.EdepXmax && inCrown h.y s.EdepYmax)
    sh.foldl s.addSHBlock r =
      ⟨r.E_rec + (near.map CaloHit.E).sum, r.E_rec_SH + (near.map CaloHit.E).sum,
        r.X_rec + (near.map (fun b => -b.y * b.E)).sum, r.Y_rec + (near.map (fun b => b.x * b.E)).sum⟩ := by
  induction sh generalizing r with
  | nil => simp
  | cons h rest ih =>
      rw [List.foldl_cons, ih, BBMax.addSHBlock]
      cases near : inCrown h.x s.EdepXmax && inCrown h.y s.EdepYmax with
      | true =>
          simp only [near, if_true, List.filter_cons, List.map_cons, List.sum_cons, BBSums.mk.injEq]
          refine ⟨?_, ?_, ?_, ?_⟩ <;> norm_num <;> ring
      | false => simp [near]

theorem bb_sums (ps sh : List (CaloHit ℝ)) :
    bbSums ps sh =
      ⟨((psWindow ps sh).map CaloHit.E).sum + ((shWindow ps sh).map CaloHit.E).sum, ((shWindow ps sh).map CaloHit.E).sum,
        ((shWindow ps sh).map (fun b => -b.y * b.E)).sum, ((shWindow ps sh).map (fun b => b.x * b.E)).sum⟩ := by
  have zero : (0.0 : ℝ) = 0 := by norm_num
  rw [bbSums]
  simp only [ps_sums, sh_sums, zero, zero_add]
  rfl

-- The positive energies of some blocks are more than the negative ones take
-- away again.
def Outweighs (blocks : List (CaloHit ℝ)) : Prop :=
  ((blocks.filter (fun b => decide (b.E < 0))).map (fun b => -b.E)).sum <
    ((blocks.filter (fun b => decide (0 < b.E))).map CaloHit.E).sum

theorem outweighs_iff (blocks : List (CaloHit ℝ)) : Outweighs blocks ↔ 0 < (blocks.map CaloHit.E).sum := by
  have parts : (blocks.map CaloHit.E).sum = ((blocks.filter (fun b => decide (0 < b.E))).map CaloHit.E).sum -
      ((blocks.filter (fun b => decide (b.E < 0))).map (fun b => -b.E)).sum := by
    induction blocks with
    | nil => simp
    | cons b rest ih =>
        rw [List.map_cons, List.sum_cons, ih, List.filter_cons, List.filter_cons]
        rcases lt_trichotomy b.E 0 with negative | zero | positive
        · simp only [negative, not_lt.mpr negative.le, decide_true, decide_false, if_true, Bool.false_eq_true, if_false,
            List.map_cons, List.sum_cons]
          ring
        · simp [zero]
        · simp only [positive, not_lt.mpr positive.le, decide_true, decide_false, if_true, Bool.false_eq_true, if_false,
            List.map_cons, List.sum_cons]
          ring
  rw [Outweighs, parts, sub_pos]

theorem outweighs_of_nonneg (blocks : List (CaloHit ℝ)) (nonneg : ∀ b ∈ blocks, 0 ≤ b.E) :
    Outweighs blocks ↔ ∃ b ∈ blocks, 0 < b.E := by
  rw [outweighs_iff]
  constructor
  · intro positive
    by_contra none
    have zero : (blocks.map CaloHit.E).sum = 0 := by
      apply List.sum_eq_zero
      intro E member
      obtain ⟨b, listed, rfl⟩ := List.mem_map.mp member
      exact le_antisymm (not_lt.mp (fun above => none ⟨b, listed, above⟩)) (nonneg b listed)
    exact absurd zero positive.ne'
  · intro some_block
    obtain ⟨b, listed, above⟩ := some_block
    refine above.trans_le (List.single_le_sum ?_ b.E (List.mem_map_of_mem listed))
    intro E member
    obtain ⟨other, listed', rfl⟩ := List.mem_map.mp member
    exact nonneg other listed'

theorem bb_positions_iff (caloThreshold : ℝ) (ps sh : List (CaloHit ℝ)) :
    (∀ c ∈ bbClusters caloThreshold ps sh, WeightedMean (fun b => -b.y) CaloHit.x (shWindow ps sh) c.fXPos c.fYPos) ↔
      ((psWindow ps sh).map CaloHit.E).sum + ((shWindow ps sh).map CaloHit.E).sum ≤ caloThreshold ∨ Outweighs (shWindow ps sh) := by
  rw [outweighs_iff, bbClusters, bb_sums]
  by_cases above : caloThreshold < ((psWindow ps sh).map CaloHit.E).sum + ((shWindow ps sh).map CaloHit.E).sum
  · rw [if_pos above, List.forall_mem_singleton]
    constructor
    · exact fun mean => .inr mean.positive
    · intro defined
      exact ⟨defined.resolve_left (not_le.mpr above), rfl, rfl⟩
  · rw [if_neg above]
    exact iff_of_true (fun c member => absurd member List.not_mem_nil) (.inl (not_lt.mp above))

-- What the search over the shower leaves of the block it found last.
def Centred (sh : List (CaloHit ℝ)) (s : BBMax ℝ) : Prop :=
  s.Edep_SH_max = 0 ∨ ∃ h ∈ sh, h.E = s.Edep_SH_max ∧ h.x = s.EdepXmax ∧ (s.Edep_PS_max < h.E → h.y = s.EdepYmax)

theorem sh_centred (sh past : List (CaloHit ℝ)) (s : BBMax ℝ) (centred : Centred past s) :
    Centred (past ++ sh) (sh.foldl BBMax.addSH s) := by
  induction sh generalizing past s with
  | nil => rwa [List.append_nil]
  | cons h rest ih =>
      have next : Centred (past ++ [h]) (s.addSH h) := by
        rw [BBMax.addSH]
        by_cases larger : s.Edep_SH_max < h.E
        · rw [if_pos larger]
          exact .inr ⟨h, List.mem_append_right past (List.mem_singleton_self h), rfl, rfl, fun above => (if_pos above).symm⟩
        · rw [if_neg larger]
          exact centred.imp_right (fun found => found.imp (fun _ both => ⟨List.mem_append_left [h] both.1, both.2⟩))
      have later := ih (past ++ [h]) (s.addSH h) next
      rwa [List.append_assoc] at later

-- A shower deposit above every preshower deposit is in its own window.
theorem centre_in_window (ps sh : List (CaloHit ℝ)) (found : 0 < (bbMax ps sh).Edep_SH_max)
    (above : (bbMax ps sh).Edep_PS_max < (bbMax ps sh).Edep_SH_max) :
    ∃ b ∈ shWindow ps sh, b.E = (bbMax ps sh).Edep_SH_max := by
  have own : ∀ a : ℝ, inCrown a a = true := by
    intro a
    have zero : Arith.abs (a - a) = (0 : ℝ) := by rw [sub_self]; exact abs_zero
    rw [inCrown, zero]
    norm_num [BBECalBlock_size]
  have start : Centred [] (ps.foldl BBMax.addPS (⟨0.0, 0.0, 0.0, 0.0⟩ : BBMax ℝ)) := by
    have kept : ∀ (ps : List (CaloHit ℝ)) (s : BBMax ℝ), (ps.foldl BBMax.addPS s).Edep_SH_max = s.Edep_SH_max := by
      intro ps
      induction ps with
      | nil => exact fun _ => rfl
      | cons h rest ih =>
          intro s
          rw [List.foldl_cons, ih, BBMax.addPS]
          split <;> rfl
    refine .inl ((kept ps _).trans ?_)
    norm_num
  cases sh_centred sh [] _ start with
  | inl nothing => exact absurd nothing found.ne'
  | inr block =>
      obtain ⟨h, listed, energy, x, y⟩ := block
      change h.E = (bbMax ps sh).Edep_SH_max at energy
      change h.x = (bbMax ps sh).EdepXmax at x
      have y' : h.y = (bbMax ps sh).EdepYmax := y (energy ▸ above)
      refine ⟨h, List.mem_filter.mpr ⟨listed, ?_⟩, energy⟩
      rw [← x, ← y', own, own]
      rfl

-- A cluster whose energy is that of some of the members, and whose position is
-- their energy-weighted mean.
def MeanOf (px py : CaloHit ℝ → ℝ) (members : List (CaloHit ℝ)) (c : ECalCluster ℝ) : Prop :=
  ∃ blocks, (∀ b ∈ blocks, b ∈ members) ∧ c.fEnergy = (blocks.map CaloHit.E).sum ∧ WeightedMean px py blocks c.fXPos c.fYPos

theorem mean_energy (px py : CaloHit ℝ → ℝ) (members : List (CaloHit ℝ)) (c : ECalCluster ℝ) (mean : MeanOf px py members c) :
    0 < c.fEnergy := by
  obtain ⟨blocks, _, energy, weighted⟩ := mean
  rw [energy]
  exact weighted.positive

theorem sums_loop (f g : CaloHit ℝ → ℝ) (clus : List (CaloHit ℝ)) (acc : ℝ × ℝ × ℝ) :
    clus.foldl (fun (acc : ℝ × ℝ × ℝ) h => (acc.1 + h.E, acc.2.1 + f h * h.E, acc.2.2 + g h * h.E)) acc =
      (acc.1 + (clus.map CaloHit.E).sum, acc.2.1 + (clus.map (fun b => f b * b.E)).sum,
        acc.2.2 + (clus.map (fun b => g b * b.E)).sum) := by
  induction clus generalizing acc with
  | nil => simp
  | cons h rest ih =>
      rw [List.foldl_cons, ih]
      simp only [List.map_cons, List.sum_cons, add_assoc]

theorem rec_sums (clus : List (CaloHit ℝ)) :
    recSums (columns clus) =
      some ((clus.map CaloHit.E).sum, (clus.map (fun b => b.x * b.E)).sum, (clus.map (fun b => b.y * b.E)).sum) := by
  have loop := entries_loop (fun (acc : ℝ × ℝ × ℝ) (h : CaloHit ℝ) => (acc.1 + h.E, acc.2.1 + h.x * h.E, acc.2.2 + h.y * h.E))
    clus (0.0, 0.0, 0.0)
  have zero : (0.0 : ℝ) = 0 := by norm_num
  rw [sums_loop] at loop
  simp only [recSums, columns_length, columns_entry]
  rw [loop]
  simp only [zero, zero_add]

theorem rec_sums_hcal (clus : List (CaloHit ℝ)) :
    recSumsHCal (columns clus) =
      some ((clus.map CaloHit.E).sum, (clus.map (fun b => -b.y * b.E)).sum, (clus.map (fun b => b.x * b.E)).sum) := by
  have loop := entries_loop (fun (acc : ℝ × ℝ × ℝ) (h : CaloHit ℝ) => (acc.1 + h.E, acc.2.1 + -1.0 * h.y * h.E, acc.2.2 + h.x * h.E))
    clus (0.0, 0.0, 0.0)
  have zero : (0.0 : ℝ) = 0 := by norm_num
  have sign : ∀ h : CaloHit ℝ, -1.0 * h.y * h.E = -h.y * h.E := fun h => by norm_num
  simp only [sign] at loop
  rw [sums_loop] at loop
  simp only [recSumsHCal, columns_length, columns_entry, sign]
  rw [loop]
  simp only [zero, zero_add]

theorem cluster_sums (cut : ℝ) (members : List (CaloHit ℝ)) (positive : ∀ h ∈ members, 0 < h.E) (v : Vectors ℝ)
    (cluster : ClusterOf cut members v) : ∃ clus, v.clus = columns clus ∧ (∀ b ∈ clus, b ∈ members) ∧
      (members = [] → clus = []) ∧ (members ≠ [] → 0 < (clus.map CaloHit.E).sum) := by
  cases cluster with
  | inl empty =>
      obtain ⟨nothing, same⟩ := empty
      exact ⟨[], by rw [same]; rfl, fun b member => absurd member List.not_mem_nil, fun _ => rfl, fun some_hit => absurd nothing some_hit⟩
  | inr grown =>
      obtain ⟨seed, blocks, rest, _, same, component⟩ := grown
      have listed : ∀ b ∈ seed :: rest, b ∈ members := fun b member => component.perm.subset (List.mem_append_left blocks member)
      refine ⟨seed :: rest, by rw [same]; rfl, listed, fun nothing => ?_, fun _ => ?_⟩
      · have seeded := listed seed (List.mem_cons_self ..)
        rw [nothing] at seeded
        exact absurd seeded List.not_mem_nil
      · have above := positive seed (listed seed (List.mem_cons_self ..))
        refine above.trans_le (List.single_le_sum ?_ seed.E (List.mem_cons_self ..))
        intro E member
        obtain ⟨b, later, rfl⟩ := List.mem_map.mp member
        exact (positive b (listed b later)).le

theorem mean_of_sums (px py : CaloHit ℝ → ℝ) (members clus : List (CaloHit ℝ)) (listed : ∀ b ∈ clus, b ∈ members)
    (positive : 0 < (clus.map CaloHit.E).sum) (c : ECalCluster ℝ) (energy : c.fEnergy = (clus.map CaloHit.E).sum)
    (x : c.fXPos = (clus.map (fun b => px b * b.E)).sum / (clus.map CaloHit.E).sum)
    (y : c.fYPos = (clus.map (fun b => py b * b.E)).sum / (clus.map CaloHit.E).sum) : MeanOf px py members c :=
  ⟨clus, listed, energy, positive, x, y⟩

theorem mean_iff (px py : CaloHit ℝ → ℝ) (members clus : List (CaloHit ℝ)) (listed : ∀ b ∈ clus, b ∈ members)
    (empty : members = [] → clus = []) (positive : members ≠ [] → 0 < (clus.map CaloHit.E).sum) (c : ECalCluster ℝ)
    (energy : c.fEnergy = (clus.map CaloHit.E).sum)
    (x : c.fXPos = (clus.map (fun b => px b * b.E)).sum / (clus.map CaloHit.E).sum)
    (y : c.fYPos = (clus.map (fun b => py b * b.E)).sum / (clus.map CaloHit.E).sum) : MeanOf px py members c ↔ members ≠ [] := by
  constructor
  · intro mean nothing
    have zero := mean_energy px py members c mean
    rw [energy, empty nothing] at zero
    exact absurd zero (lt_irrefl 0)
  · exact fun some_hit => mean_of_sums px py members clus listed (positive some_hit) c energy x y

theorem ecal_mean_iff (caloThreshold : ℝ) (hits clus : List (CaloHit ℝ)) (listed : ∀ b ∈ clus, b ∈ hits)
    (empty : hits = [] → clus = []) (positive : hits ≠ [] → 0 < (clus.map CaloHit.E).sum) (c : ECalCluster ℝ)
    (energy : c.fEnergy = (clus.map CaloHit.E).sum)
    (x : c.fXPos = (clus.map (fun b => b.x * b.E)).sum / (clus.map CaloHit.E).sum)
    (y : c.fYPos = (clus.map (fun b => b.y * b.E)).sum / (clus.map CaloHit.E).sum) :
    (∀ c' ∈ if caloThreshold < (clus.map CaloHit.E).sum then [c] else [], MeanOf CaloHit.x CaloHit.y hits c') ↔
      hits ≠ [] ∨ 0 ≤ caloThreshold := by
  have mean := mean_iff CaloHit.x CaloHit.y hits clus listed empty positive c energy x y
  by_cases some_hit : hits ≠ []
  · refine iff_of_true (fun c' member => ?_) (.inl some_hit)
    split at member
    · rw [List.mem_singleton.mp member]
      exact mean.mpr some_hit
    · exact absurd member List.not_mem_nil
  · have zero : (clus.map CaloHit.E).sum = 0 := by rw [empty (not_not.mp some_hit)]; rfl
    rw [or_iff_right some_hit, zero]
    by_cases below : caloThreshold < 0
    · rw [if_pos below, List.forall_mem_singleton, mean]
      exact iff_of_false some_hit (not_le.mpr below)
    · rw [if_neg below]
      exact iff_of_true (fun c' member => absurd member List.not_mem_nil) (not_lt.mp below)

theorem slats_positive (plane : Int) (slats : List (Int × CaloHit ℝ)) (positive : ∀ h ∈ slats, 0 < h.2.E) :
    ∀ h ∈ slatsOf plane slats, 0 < h.E := by
  intro h member
  obtain ⟨slat, kept, rfl⟩ := List.mem_map.mp member
  exact positive slat (List.mem_filter.mp kept).1

def GEpMeans (hits : List (CaloHit ℝ)) (slats : List (Int × CaloHit ℝ)) (stored : List (ECalCluster ℝ) × List (ScintCluster ℝ)) :
    Prop :=
  (∀ c ∈ stored.1, MeanOf CaloHit.x CaloHit.y hits c) ∧
    ∀ c ∈ stored.2, MeanOf CaloHit.x CaloHit.y (slatsOf c.fPlane slats) c.toECalCluster

theorem gep_cluster (hits : List (CaloHit ℝ)) (positive : ∀ h ∈ hits, 0 < h.E) :
    ∃ v, clusterGEpECal hits = some v ∧ ClusterOf (GEpECalBlock_size * 1.1) hits v := by
  obtain ⟨s, found, seeded⟩ := find_seed_seeded hits positive
  have cut : (0 : ℝ) < GEpECalBlock_size * 1.1 := by norm_num [GEpECalBlock_size]
  rw [clusterGEpECal, found]
  exact cluster_of_grow _ cut hits s seeded

theorem hcal_cluster (hits : List (CaloHit ℝ)) (positive : ∀ h ∈ hits, 0 < h.E) :
    ∃ v, clusterHCal hits = some v ∧ ClusterOf (HCalBlock_size * 1.5) hits v := by
  obtain ⟨s, found, seeded⟩ := find_seed_seeded hits positive
  have cut : (0 : ℝ) < HCalBlock_size * 1.5 := by norm_num [HCalBlock_size]
  rw [clusterHCal, found]
  exact cluster_of_grow_hcal _ cut hits s seeded

theorem cdet_clusters (slats : List (Int × CaloHit ℝ)) (positive : ∀ h ∈ slats, 0 < h.2.E) :
    (∃ v, clusterCDetPlane1 slats = some v ∧ ClusterOf (GEpCDetSlat_size * 1.1) (slatsOf 1 slats) v) ∧
      ∃ v, clusterCDetPlane2 slats = some v ∧ ClusterOf (GEpCDetSlat_size * 1.1) (slatsOf 2 slats) v := by
  have cut : (0 : ℝ) < GEpCDetSlat_size * 1.1 := by norm_num [GEpCDetSlat_size]
  obtain ⟨first, found1, seeded1⟩ := find_seed_seeded (slatsOf 1 slats) (slats_positive 1 slats positive)
  obtain ⟨second, found2, seeded2⟩ := find_seed_seeded (slatsOf 2 slats) (slats_positive 2 slats positive)
  rw [clusterCDetPlane1, clusterCDetPlane2, find_seeds_split slats first second found1 found2]
  exact ⟨cluster_of_grow _ cut _ first seeded1, cluster_of_grow _ cut _ second seeded2⟩

theorem scint_mean (plane : Int) (cut : ℝ) (slats : List (Int × CaloHit ℝ)) (positive : ∀ h ∈ slats, 0 < h.2.E) (v : Vectors ℝ)
    (cluster : ClusterOf cut (slatsOf plane slats) v) : ∃ c, scintCluster plane v = some c ∧ c.fPlane = plane ∧
      (MeanOf CaloHit.x CaloHit.y (slatsOf plane slats) c.toECalCluster ↔ slatsOf plane slats ≠ []) := by
  obtain ⟨clus, same, listed, empty, above⟩ := cluster_sums cut _ (slats_positive plane slats positive) v cluster
  refine ⟨⟨⟨(clus.map CaloHit.E).sum, _, _, 0.0, 0.0, 0.0, 31⟩, plane⟩, by rw [scintCluster, same, rec_sums]; rfl, rfl, ?_⟩
  exact mean_iff CaloHit.x CaloHit.y _ clus listed empty above _ rfl rfl rfl

theorem gep_positions_iff {rng : Rng ℝ} (caloThreshold : ℝ) (ecal : List (CellHit ℝ)) (cdet : List (CDetHit ℝ))
    (st mid last : rng.State) (hits : List (CaloHit ℝ)) (slats : List (Int × CaloHit ℝ))
    (smeared : readCells 5.38e2 ecal st = .ok (hits, mid)) (slatted : readSlats 5.634e3 cdet mid = .ok (slats, last)) :
    ∃ stored st', getGEpECalCluster caloThreshold ecal cdet st = .ok (stored, st') ∧
      (GEpMeans hits slats stored ↔ totalEdep hits < caloThreshold ∨
        ((hits ≠ [] ∨ 0 ≤ caloThreshold) ∧ slatsOf 1 slats ≠ [] ∧ slatsOf 2 slats ≠ [])) := by
  have positive := read_cells_positive 5.38e2 (by norm_num) ecal st mid hits smeared
  have positiveSlats := read_slats_positive 5.634e3 (by norm_num) cdet mid last slats slatted
  obtain ⟨s, found, _⟩ := find_seed_seeded hits positive
  obtain ⟨v, ended, cluster⟩ := gep_cluster hits positive
  obtain ⟨⟨v1, ended1, cluster1⟩, v2, ended2, cluster2⟩ := cdet_clusters slats positiveSlats
  obtain ⟨clus, same, listed, empty, above⟩ := cluster_sums _ hits positive v cluster
  obtain ⟨c1, stored1, plane1, mean1⟩ := scint_mean 1 _ slats positiveSlats v1 cluster1
  obtain ⟨c2, stored2, plane2, mean2⟩ := scint_mean 2 _ slats positiveSlats v2 cluster2
  have sums := rec_sums clus
  rw [← same] at sums
  rw [getGEpECalCluster]
  by_cases low : totalEdep hits < caloThreshold
  · rw [draw_bind_of _ _ _ _ _ smeared, draw_bind_of _ _ _ _ _ (draw_checked _ _ s mid found)]
    simp only [if_pos low]
    refine ⟨_, _, rfl, iff_of_true ⟨fun c member => ?_, fun c member => ?_⟩ (.inl low)⟩
    · exact absurd member List.not_mem_nil
    · exact absurd member List.not_mem_nil
  · rw [draw_bind_of _ _ _ _ _ smeared, draw_bind_of _ _ _ _ _ (draw_checked _ _ s mid found)]
    simp only [if_neg low]
    rw [draw_bind_of _ _ _ _ _ (draw_checked _ _ v mid ended), draw_bind_of _ _ _ _ _ (draw_checked _ _ _ mid sums),
      draw_bind_of _ _ _ _ _ slatted, draw_bind_of _ _ _ _ _ (draw_checked _ _ c1 last (by rw [ended1]; exact stored1)),
      draw_bind_of _ _ _ _ _ (draw_checked _ _ c2 last (by rw [ended2]; exact stored2))]
    refine ⟨_, _, rfl, ?_⟩
    rw [or_iff_right low]
    refine and_congr (ecal_mean_iff caloThreshold hits clus listed empty above _ rfl rfl rfl) ?_
    rw [List.forall_mem_cons, List.forall_mem_singleton, plane1, plane2, mean1, mean2]

theorem hcal_positions {rng : Rng ℝ} (hcal : List (CellHit ℝ)) (st mid : rng.State) (hits : List (CaloHit ℝ))
    (smeared : readCells 5.0e3 hcal st = .ok (hits, mid)) :
    ∃ stored st', getHCalCluster hcal st = .ok (stored, st') ∧ ∀ c ∈ stored, MeanOf (fun b => -b.y) CaloHit.x hits c := by
  have positive := read_cells_positive 5.0e3 (by norm_num) hcal st mid hits smeared
  obtain ⟨v, ended, cluster⟩ := hcal_cluster hits positive
  obtain ⟨clus, same, listed, _, above⟩ := cluster_sums _ hits positive v cluster
  have sums := rec_sums_hcal clus
  rw [← same] at sums
  rw [getHCalCluster, draw_bind_of _ _ _ _ _ smeared]
  by_cases energy : (0.01 : ℝ) < totalEdep hits
  · have some_hit : hits ≠ [] := by
      intro nothing
      rw [nothing, totalEdep, List.foldl_nil] at energy
      norm_num at energy
    rw [if_pos energy, draw_bind_of _ _ _ _ _ (draw_checked _ _ v mid ended), draw_bind_of _ _ _ _ _ (draw_checked _ _ _ mid sums)]
    refine ⟨_, _, rfl, fun c member => ?_⟩
    rw [List.mem_singleton.mp member]
    exact mean_of_sums _ _ hits clus listed (above some_hit) _ rfl rfl rfl
  · rw [if_neg energy]
    exact ⟨_, _, rfl, fun c member => absurd member List.not_mem_nil⟩

end Solgem
