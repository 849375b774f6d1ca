import Mathlib.Data.Finset.Image
import Mathlib.Data.Finset.Range
import Solgem.Lib.BitCount
import Solgem.Lib.Listing
import Solgem.Lib.Runs
import Solgem.StripTruth

set_option autoImplicit false

namespace Solgem

open Lib

variable {F : Type}

-- The projections of a track point, numbered as the tracking software does.
def kXPlane : Int := 2
def kYPlane : Int := 3

-- MCTrackPoint, with the digitized bit of its status.
structure MCTrackPoint (F : Type) where
  fMCTrack : Int
  fPlane : Int
  fType : Int
  fMCPoint : V3 F
  fMCP : V3 F
  fMCTime : F
  kDigitized : Bool

-- The local variables of the cluster loop of DoLoadEvent and the arrays it
-- fills; a GEM hit is a copy of its cluster.
structure PrimaryTrack (F : Type) where
  fMCHits : List (GEMCluster F)
  fMCPoints : List (MCTrackPoint F)
  best_primary : Int
  best_primary_plane : Int
  primary_sector : Int
  primary_hitbits : BitVec 32
  ufail : BitVec 32
  vfail : BitVec 32

def setBit (v : BitVec 32) (i : Int) : BitVec 32 := v ||| ((1 : BitVec 32) <<< i.toNat)

def numberOfSetBits (v : BitVec 32) : Int :=
  let v := v - ((v >>> 1) &&& 0x55555555)
  let v := (v &&& 0x33333333) + ((v >>> 2) &&& 0x33333333)
  ((((v + (v >>> 4)) &&& 0x0F0F0F0F) * 0x01010101) >>> 24).toNat

def PrimaryTrack.start (nchamber : Int) : PrimaryTrack F where
  fMCHits := []
  fMCPoints := []
  best_primary := -1
  best_primary_plane := nchamber
  primary_sector := -1
  primary_hitbits := 0
  ufail := 0
  vfail := 0

-- One point for each projection.
def trackPoints (itrack : Int) (c : GEMCluster F) : List (MCTrackPoint F) :=
  [⟨itrack, c.fPlane, kXPlane, c.fMCpos, c.fP, c.fTime, !decide (c.fSize 0 = 0)⟩,
    ⟨itrack, c.fPlane, kYPlane, c.fMCpos, c.fP, c.fTime, !decide (c.fSize 1 = 0)⟩]

def isPrimary (c : GEMCluster F) : Bool := decide (c.fType = kPrimaryType ∧ c.fSource = kPrimarySource)

-- One pass of the loop; an illegal plane number gives up the event.
def PrimaryTrack.addCluster (nchamber itrack : Int) (s : PrimaryTrack F) (entry : GEMCluster F × Nat) : Option (PrimaryTrack F) :=
  let (c, i) := entry
  if c.fPlane < 0 ∨ nchamber ≤ c.fPlane then none
  else
    let s := { s with fMCHits := s.fMCHits ++ [c] }
    if isPrimary c then
      some { s with
        primary_sector := c.fSector
        fMCPoints := s.fMCPoints ++ trackPoints itrack c
        primary_hitbits := setBit s.primary_hitbits c.fPlane
        best_primary := if c.fPlane < s.best_primary_plane then (i : Int) else s.best_primary
        best_primary_plane := if c.fPlane < s.best_primary_plane then c.fPlane else s.best_primary_plane
        ufail := if c.fSize 0 = 0 then setBit s.ufail c.fPlane else s.ufail
        vfail := if c.fSize 1 = 0 then setBit s.vfail c.fPlane else s.vfail }
    else some s

def loadClusters (nchamber itrack : Int) (fGEMClust : List (GEMCluster F)) : Option (PrimaryTrack F) :=
  fGEMClust.zipIdx.foldlM (PrimaryTrack.addCluster nchamber itrack) (PrimaryTrack.start nchamber)

structure SimBackTrack (F : Type) where
  fType : Int
  fPID : Int
  fSector : Int
  fSource : Int
  fOrigin : V3 F
  fHitpos : V3 F
  fMomentum : V3 F
  fHitBits : BitVec 32
  fUfailBits : BitVec 32
  fVfailBits : BitVec 32

section
variable [Arith F]

-- TVector3::Unit returns a null vector as it is.
def V3.unit (a : V3 F) : V3 F :=
  let tot2 := a.x * a.x + a.y * a.y + a.z * a.z
  let tot := if 0.0 < tot2 then 1.0 / Arith.sqrt tot2 else 1.0
  ⟨a.x * tot, a.y * tot, a.z * tot⟩

-- The constructor from a cluster. Update gives up, with the vectors still
-- zero, when the hit lies in front of the first plane.
def SimBackTrack.ofCluster (fZ0 : F) (c : GEMCluster F) : SimBackTrack F :=
  let zero : V3 F := ⟨0.0, 0.0, 0.0⟩
  let btr : SimBackTrack F := ⟨c.fType, c.fPID, c.fSector, c.fSource, zero, zero, zero, setBit 0 c.fPlane, 0, 0⟩
  let dz := c.fMCpos.z - fZ0
  if 0 < c.fPlane then
    if dz ≤ 0.0 then btr
    else
      let dir := c.fP.unit
      { btr with fOrigin := c.fMCpos.sub ⟨dz * dir.x, dz * dir.y, dz * dir.z⟩, fHitpos := c.fHitpos, fMomentum := c.fP }
  else { btr with fOrigin := c.fMCpos, fHitpos := c.fHitpos, fMomentum := c.fP }

-- The arrays and the primary track DoLoadEvent leaves behind.
structure PrimaryTruth (F : Type) extends PrimaryTrack F where
  fNHits : Int
  fHitBits : BitVec 32
  fBackTracks : List (SimBackTrack F)

def primaryTruth (fZ0 : F) (nchamber itrack : Int) (fGEMClust : List (GEMCluster F)) : Option (PrimaryTruth F) :=
  (loadClusters nchamber itrack fGEMClust).bind (fun s =>
    let fNHits := 2 * numberOfSetBits s.primary_hitbits
    if 0 ≤ s.best_primary then
      (fGEMClust[s.best_primary.toNat]?).map (fun c =>
        ⟨s, fNHits, s.primary_hitbits,
          [{ SimBackTrack.ofCluster fZ0 c with fHitBits := s.primary_hitbits, fUfailBits := s.ufail, fVfailBits := s.vfail }]⟩)
    else some ⟨s, fNHits, s.primary_hitbits, []⟩)

end

theorem number_of_set_bits (v : BitVec 32) : numberOfSetBits v = bitCount 32 v.toNat := by
  obtain ⟨a, b, c, d, first, second, third, fourth, split⟩ := word_split v.toNat v.isLt
  have pairs : (v - ((v >>> 1) &&& 0x55555555)).toNat = word (pairCounts a) (pairCounts b) (pairCounts c) (pairCounts d) := by
    have masked : ((v >>> 1) &&& 0x55555555).toNat = word a b c d / 2 &&& word 85 85 85 85 := by
      rw [BitVec.toNat_and, BitVec.toNat_ushiftRight, Nat.shiftRight_eq_div_pow, split]
      rfl
    have smaller : ((v >>> 1) &&& 0x55555555).toNat ≤ v.toNat := by
      rw [masked, split]
      exact Nat.and_le_left.trans (Nat.div_le_self _ 2)
    rw [BitVec.toNat_sub_of_le smaller, masked, split, count_pairs a b c d first second third fourth]
  rw [numberOfSetBits]
  generalize v - ((v >>> 1) &&& 0x55555555) = x at pairs
  have fits := nibbles_fit a b c d first second third fourth
  have nibbles : ((x &&& 0x33333333) + ((x >>> 2) &&& 0x33333333)).toNat =
      word (nibbleCounts a) (nibbleCounts b) (nibbleCounts c) (nibbleCounts d) := by
    have sum := count_nibbles a b c d first second third fourth
    rw [BitVec.toNat_add, BitVec.toNat_and, BitVec.toNat_and, BitVec.toNat_ushiftRight, Nat.shiftRight_eq_div_pow, pairs]
    exact (congrArg (· % 2 ^ 32) sum).trans (Nat.mod_eq_of_lt (by omega))
  generalize (x &&& 0x33333333) + ((x >>> 2) &&& 0x33333333) = y at nibbles
  have bytes : ((y + (y >>> 4)) &&& 0x0F0F0F0F).toNat = word (bitCount 8 a) (bitCount 8 b) (bitCount 8 c) (bitCount 8 d) := by
    have sum := count_bytes a b c d first second third fourth
    rw [BitVec.toNat_and, BitVec.toNat_add, BitVec.toNat_ushiftRight, Nat.shiftRight_eq_div_pow, nibbles,
      Nat.mod_eq_of_lt (by omega)]
    exact sum
  rw [BitVec.toNat_ushiftRight, Nat.shiftRight_eq_div_pow, BitVec.toNat_mul, bytes, split]
  exact congrArg Nat.cast (gather_bytes a b c d first second third fourth)

theorem set_bit_test (v : BitVec 32) (i : Int) (low : 0 ≤ i) (high : i < 32) (p : Nat) :
    (setBit v i).getLsbD p = true ↔ v.getLsbD p = true ∨ i = p := by
  rw [setBit, BitVec.getLsbD_or, BitVec.getLsbD_shiftLeft, Bool.or_eq_true]
  refine or_congr_right ?_
  simp
  omega

-- The planes of the clusters that pass a test, as a bit pattern.
def MarksPlanes (v : BitVec 32) (cs : List (GEMCluster F)) (q : GEMCluster F → Bool) : Prop :=
  ∀ p : Nat, v.getLsbD p = true ↔ ∃ c ∈ cs, q c = true ∧ c.fPlane = p

theorem marks_planes_nil (q : GEMCluster F → Bool) : MarksPlanes 0 [] q := by
  intro p
  simp

theorem marks_planes_append (v : BitVec 32) (cs : List (GEMCluster F)) (q : GEMCluster F → Bool) (marks : MarksPlanes v cs q)
    (c : GEMCluster F) (low : 0 ≤ c.fPlane) (high : c.fPlane < 32) :
    MarksPlanes (if q c then setBit v c.fPlane else v) (cs ++ [c]) q := by
  intro p
  have split : (∃ d ∈ cs ++ [c], q d = true ∧ d.fPlane = p) ↔
      (∃ d ∈ cs, q d = true ∧ d.fPlane = p) ∨ q c = true ∧ c.fPlane = p := by
    simp only [List.mem_append, List.mem_singleton, or_and_right, exists_or, exists_eq_left]
  rw [split, ← marks p]
  by_cases passes : q c = true
  · rw [if_pos passes, set_bit_test v c.fPlane low high p, and_iff_right passes]
  · rw [if_neg passes, or_iff_left (fun both => passes both.1)]

theorem marks_planes_count (v : BitVec 32) (cs : List (GEMCluster F)) (q : GEMCluster F → Bool) (marks : MarksPlanes v cs q)
    (low : ∀ c ∈ cs, 0 ≤ c.fPlane) : numberOfSetBits v = (((cs.filter q).map GEMCluster.fPlane).toFinset.card : Int) := by
  have planes : ((cs.filter q).map GEMCluster.fPlane).toFinset =
      ((Finset.range 32).filter (fun p => v.getLsbD p = true)).image Nat.cast := by
    ext plane
    simp only [List.mem_toFinset, List.mem_map, List.mem_filter, Finset.mem_image, Finset.mem_filter, Finset.mem_range]
    constructor
    · rintro ⟨c, ⟨member, passes⟩, rfl⟩
      have set : v.getLsbD c.fPlane.toNat = true := (marks _).mpr ⟨c, member, passes, (Int.toNat_of_nonneg (low c member)).symm⟩
      exact ⟨c.fPlane.toNat, ⟨BitVec.lt_of_getLsbD set, set⟩, Int.toNat_of_nonneg (low c member)⟩
    · rintro ⟨p, ⟨_, set⟩, rfl⟩
      obtain ⟨c, member, passes, here⟩ := (marks p).mp set
      exact ⟨c, ⟨member, passes⟩, here⟩
  have counted : ((Finset.range 32).filter (fun p => v.getLsbD p = true)).card = bitCount 32 v.toNat := by
    change ((List.range 32).filter (fun p => decide (v.getLsbD p = true))).length = _
    rw [bitCount, List.countP_eq_length_filter]
    simp only [Bool.decide_eq_true]
    rfl
  rw [number_of_set_bits, planes, Finset.card_image_of_injective _ Nat.cast_injective, counted]

-- The first among the primary clusters closest to plane 0.
structure FirstNearest (cs : List (GEMCluster F)) (i : Nat) (c : GEMCluster F) : Prop where
  here : cs[i]? = some c
  primary : isPrimary c = true
  nearest : ∀ (j : Nat) (d : GEMCluster F), cs[j]? = some d → isPrimary d = true → c.fPlane ≤ d.fPlane ∧ (d.fPlane = c.fPlane → i ≤ j)

theorem first_nearest_keep (cs : List (GEMCluster F)) (i : Nat) (c d : GEMCluster F) (first : FirstNearest cs i c)
    (farther : isPrimary d = true → c.fPlane ≤ d.fPlane) : FirstNearest (cs ++ [d]) i c := by
  have bound := (List.getElem?_eq_some_iff.mp first.here).1
  refine ⟨(get_append_singleton ..).mpr (.inl first.here), first.primary, fun j e entry primary => ?_⟩
  rcases (get_append_singleton ..).mp entry with old | ⟨last, same⟩
  · exact first.nearest j e old primary
  · rw [← same] at primary ⊢
    exact ⟨farther primary, fun _ => by omega⟩

theorem first_nearest_last (cs : List (GEMCluster F)) (d : GEMCluster F) (primary : isPrimary d = true)
    (closer : ∀ c ∈ cs, isPrimary c = true → d.fPlane < c.fPlane) : FirstNearest (cs ++ [d]) cs.length d := by
  refine ⟨(get_append_singleton ..).mpr (.inr ⟨rfl, rfl⟩), primary, fun j e entry primary' => ?_⟩
  rcases (get_append_singleton ..).mp entry with old | ⟨last, same⟩
  · have below := closer e (List.mem_of_getElem? old) primary'
    exact ⟨below.le, fun equal => by omega⟩
  · rw [← same]
    exact ⟨le_refl _, fun _ => last.ge⟩

-- The loop state after the clusters done so far.
structure PrimaryTrack.Tallied (nchamber itrack : Int) (cs : List (GEMCluster F)) (s : PrimaryTrack F) : Prop where
  hits : s.fMCHits = cs
  points : s.fMCPoints = (cs.filter isPrimary).flatMap (trackPoints itrack)
  hitbits : MarksPlanes s.primary_hitbits cs isPrimary
  ufail : MarksPlanes s.ufail cs (fun c => isPrimary c && decide (c.fSize 0 = 0))
  vfail : MarksPlanes s.vfail cs (fun c => isPrimary c && decide (c.fSize 1 = 0))
  best : (∀ c ∈ cs, isPrimary c = false) ∧ s.best_primary = -1 ∧ s.best_primary_plane = nchamber ∨
    ∃ i c, FirstNearest cs i c ∧ s.best_primary = (i : Int) ∧ s.best_primary_plane = c.fPlane

theorem start_tallied (nchamber itrack : Int) : (PrimaryTrack.start nchamber : PrimaryTrack F).Tallied nchamber itrack [] where
  hits := rfl
  points := rfl
  hitbits := marks_planes_nil _
  ufail := marks_planes_nil _
  vfail := marks_planes_nil _
  best := .inl ⟨fun _ member => absurd member List.not_mem_nil, rfl, rfl⟩

theorem add_cluster_tallied (nchamber itrack : Int) (fits : nchamber ≤ 32) (cs : List (GEMCluster F)) (c : GEMCluster F)
    (low : 0 ≤ c.fPlane) (high : c.fPlane < nchamber) (s : PrimaryTrack F) (tallied : s.Tallied nchamber itrack cs) :
    ∃ s', s.addCluster nchamber itrack (c, cs.length) = some s' ∧ s'.Tallied nchamber itrack (cs ++ [c]) := by
  have legal : ¬ (c.fPlane < 0 ∨ nchamber ≤ c.fPlane) := by omega
  have below : c.fPlane < 32 := by omega
  have hitbits := marks_planes_append _ _ _ tallied.hitbits c low below
  have ufail := marks_planes_append _ _ _ tallied.ufail c low below
  have vfail := marks_planes_append _ _ _ tallied.vfail c low below
  cases primary : isPrimary c with
  | false =>
      refine ⟨{ s with fMCHits := s.fMCHits ++ [c] }, by simp [PrimaryTrack.addCluster, legal, primary], ?_⟩
      rw [primary] at hitbits
      rw [primary, Bool.false_and] at ufail vfail
      refine ⟨congrArg (· ++ [c]) tallied.hits, ?_, hitbits, ufail, vfail, ?_⟩
      · rw [List.filter_append, List.filter_singleton, primary, cond_false, List.append_nil]
        exact tallied.points
      · rcases tallied.best with ⟨none, index, plane⟩ | ⟨i, b, first, index, plane⟩
        · refine .inl ⟨fun d member => ?_, index, plane⟩
          cases List.mem_append.mp member with
          | inl old => exact none d old
          | inr last => rw [List.mem_singleton.mp last, primary]
        · refine .inr ⟨i, b, first_nearest_keep cs i b c first (fun primary' => ?_), index, plane⟩
          rw [primary] at primary'
          cases primary'
  | true =>
      refine ⟨_, (if_neg legal).trans (if_pos primary), ?_⟩
      rw [primary, if_pos rfl] at hitbits
      rw [primary, Bool.true_and] at ufail vfail
      simp only [decide_eq_true_eq] at ufail vfail
      refine ⟨congrArg (· ++ [c]) tallied.hits, ?_, hitbits, ufail, vfail, ?_⟩
      · rw [List.filter_append, List.filter_singleton, primary, cond_true, List.flatMap_append, List.flatMap_singleton]
        exact congrArg (· ++ trackPoints itrack c) tallied.points
      · right
        rcases tallied.best with ⟨none, index, plane⟩ | ⟨i, b, first, index, plane⟩
        · have closer : c.fPlane < s.best_primary_plane := plane ▸ high
          refine ⟨cs.length, c, first_nearest_last cs c primary (fun d member primary' => ?_), if_pos closer, if_pos closer⟩
          rw [none d member] at primary'
          cases primary'
        · by_cases closer : c.fPlane < b.fPlane
          · have taken : c.fPlane < s.best_primary_plane := plane ▸ closer
            refine ⟨cs.length, c, first_nearest_last cs c primary (fun d member primary' => ?_), if_pos taken, if_pos taken⟩
            obtain ⟨j, entry⟩ := List.mem_iff_getElem?.mp member
            exact closer.trans_le (first.nearest j d entry primary').1
          · have kept : ¬ c.fPlane < s.best_primary_plane := plane ▸ closer
            exact ⟨i, b, first_nearest_keep cs i b c first (fun _ => not_lt.mp closer), (if_neg kept).trans index, (if_neg kept).trans plane⟩

theorem load_clusters_tallied (nchamber itrack : Int) (fits : nchamber ≤ 32) (fGEMClust : List (GEMCluster F))
    (legal : ∀ c ∈ fGEMClust, 0 ≤ c.fPlane ∧ c.fPlane < nchamber) :
    ∃ s, loadClusters nchamber itrack fGEMClust = some s ∧ s.Tallied nchamber itrack fGEMClust := by
  have progress : ∀ past c (s : PrimaryTrack F), c ∈ fGEMClust → s.Tallied nchamber itrack past →
      ∃ s', s.addCluster nchamber itrack (c, past.length) = some s' ∧ s'.Tallied nchamber itrack (past ++ [c]) :=
    fun past c s member tallied => add_cluster_tallied nchamber itrack fits past c (legal c member).1 (legal c member).2 s tallied
  exact foldlM_indexed _ _ [] fGEMClust progress _ (start_tallied nchamber itrack)

section
variable [Arith F]

-- What is recorded of the primary track of an event.
structure PrimaryTruth.Records (fZ0 : F) (itrack : Int) (cs : List (GEMCluster F)) (r : PrimaryTruth F) : Prop where
  hitbits : ∀ p : Nat, r.primary_hitbits.getLsbD p = true ↔ ∃ c ∈ cs, isPrimary c = true ∧ c.fPlane = p
  fHitBits : r.fHitBits = r.primary_hitbits
  fNHits : r.fNHits = 2 * (((cs.filter isPrimary).map GEMCluster.fPlane).toFinset.card : Int)
  ufail : ∀ p : Nat, r.ufail.getLsbD p = true ↔ ∃ c ∈ cs, isPrimary c = true ∧ c.fSize 0 = 0 ∧ c.fPlane = p
  vfail : ∀ p : Nat, r.vfail.getLsbD p = true ↔ ∃ c ∈ cs, isPrimary c = true ∧ c.fSize 1 = 0 ∧ c.fPlane = p
  subsets : ∀ p : Nat, r.ufail.getLsbD p = true ∨ r.vfail.getLsbD p = true → r.primary_hitbits.getLsbD p = true
  points : r.fMCPoints = (cs.filter isPrimary).flatMap (trackPoints itrack)
  pairs : r.fMCPoints.length = 2 * cs.countP isPrimary
  backTracks : (∀ c ∈ cs, isPrimary c = false) ∧ r.fBackTracks = [] ∨
    ∃ i c, FirstNearest cs i c ∧ r.fBackTracks =
      [{ SimBackTrack.ofCluster fZ0 c with fHitBits := r.primary_hitbits, fUfailBits := r.ufail, fVfailBits := r.vfail }]

theorem primary_truth_records (fZ0 : F) (nchamber itrack : Int) (fits : nchamber ≤ 32) (fGEMClust : List (GEMCluster F))
    (legal : ∀ c ∈ fGEMClust, 0 ≤ c.fPlane ∧ c.fPlane < nchamber) :
    ∃ r, primaryTruth fZ0 nchamber itrack fGEMClust = some r ∧ r.Records fZ0 itrack fGEMClust := by
  obtain ⟨s, loaded, tallied⟩ := load_clusters_tallied nchamber itrack fits fGEMClust legal
  have ufail : ∀ p : Nat, s.ufail.getLsbD p = true ↔ ∃ c ∈ fGEMClust, isPrimary c = true ∧ c.fSize 0 = 0 ∧ c.fPlane = p := by
    intro p
    simpa only [Bool.and_eq_true, decide_eq_true_eq, and_assoc] using tallied.ufail p
  have vfail : ∀ p : Nat, s.vfail.getLsbD p = true ↔ ∃ c ∈ fGEMClust, isPrimary c = true ∧ c.fSize 1 = 0 ∧ c.fPlane = p := by
    intro p
    simpa only [Bool.and_eq_true, decide_eq_true_eq, and_assoc] using tallied.vfail p
  have subsets : ∀ p : Nat, s.ufail.getLsbD p = true ∨ s.vfail.getLsbD p = true → s.primary_hitbits.getLsbD p = true := by
    intro p failed
    refine (tallied.hitbits p).mpr ?_
    cases failed with
    | inl u =>
        obtain ⟨c, member, primary, _, plane⟩ := (ufail p).mp u
        exact ⟨c, member, primary, plane⟩
    | inr v =>
        obtain ⟨c, member, primary, _, plane⟩ := (vfail p).mp v
        exact ⟨c, member, primary, plane⟩
  have pairs : s.fMCPoints.length = 2 * fGEMClust.countP isPrimary := by
    rw [tallied.points, List.countP_eq_length_filter, List.length_flatMap]
    simp [trackPoints, Nat.mul_comm]
  have count := congrArg (2 * ·) (marks_planes_count _ _ _ tallied.hitbits (fun c member => (legal c member).1))
  rw [primaryTruth, loaded, Option.bind_some]
  rcases tallied.best with ⟨none, index, _⟩ | ⟨i, c, first, index, _⟩
  · refine ⟨_, if_neg (by omega), ?_⟩
    exact ⟨tallied.hitbits, rfl, count, ufail, vfail, subsets, tallied.points, pairs, .inl ⟨none, rfl⟩⟩
  · rw [if_pos (by omega), index, Int.toNat_natCast, first.here, Option.map_some]
    refine ⟨_, rfl, ?_⟩
    exact ⟨tallied.hitbits, rfl, count, ufail, vfail, subsets, tallied.points, pairs, .inr ⟨i, c, first, rfl⟩⟩

-- Plane 1 comes first in the list; the second cluster in plane 0 is no nearer
-- than the first one, and a background cluster counts for nothing.
theorem primary_truth_records_two_planes :
    let cs := [{ contributor 1 0 5 2 with fPlane := 1 }, contributor 2 0 6 3, contributor 3 0 7 4, contributor 4 1 8 5]
    ∃ r, primaryTruth 0 5 1 cs = some r ∧ r.Records 0 1 cs := by
  intro cs
  refine primary_truth_records 0 5 1 (by decide) cs (fun c member => ?_)
  simp only [cs, List.mem_cons, List.not_mem_nil, or_false] at member
  rcases member with rfl | rfl | rfl | rfl
  · decide
  · decide
  · decide
  · decide

end

end Solgem
