import Mathlib.Data.List.GetD
import Mathlib.Data.List.Range
import Solgem.AvaModel
import Solgem.Lib.Runs
import Solgem.PlaneRuns

set_option autoImplicit false

namespace Solgem

open Lib

section
variable {A : Type} (P : A → Prop) (xs : List A)

theorem array_at_all (zero : A) (i : Int) (all : ∀ x ∈ xs, P x) (none : P zero) : P (arrayAt xs zero i) := by
  simp only [arrayAt, List.getD]
  split
  · cases found : xs[i.toNat]? with
    | none => exact none
    | some x => exact all x (List.mem_of_getElem? found)
  · exact none

theorem add_at_all (value : A) (i : Int) (all : ∀ x ∈ xs, P x) (added : P value) : ∀ x ∈ addAt xs value i, P x := by
  intro x member
  simp only [addAt] at member
  split at member
  · rcases List.mem_or_eq_of_mem_set member with old | rfl
    · exact all x old
    · exact added
  · exact all x member

theorem array_new_all (zero : A) (n : Int) (none : P zero) : ∀ x ∈ arrayNew n zero, P x := by
  intro x member
  rw [List.eq_of_mem_replicate member]
  exact none

end

theorem add_at_length {A : Type} (xs : List A) (value : A) (i : Int) : (addAt xs value i).length = xs.length := by
  simp only [addAt]
  split <;> simp

theorem take_add_at {A : Type} (xs : List A) (value : A) (i : Nat) (slot : i < xs.length) :
    (addAt xs value i).take (i + 1) = xs.take i ++ [value] := by
  have index : (0 : Int) ≤ i := Int.natCast_nonneg i
  rw [addAt, if_pos index, Int.toNat_natCast, List.take_add_one, List.take_set_of_le (Nat.le_refl i),
    List.getElem?_set_self slot, Option.toList_some]

variable {F : Type} [Arith F]

namespace GEMPlane

theorem strip_range_bounds (pl : GEMPlane F) (r : Region F) (iL iU : Int)
    (found : stripRange pl r = some (some (iL, iU))) : 0 ≤ iL ∧ iL ≤ iU ∧ iU < pl.fNStrips := by
  simp only [stripRange, Option.bind_eq_bind, Option.bind_eq_some_iff] at found
  obtain ⟨low, lowFound, high, highFound, rest⟩ := found
  have lowBounds := get_strip_bounds pl _ _ low lowFound
  have highBounds := get_strip_bounds pl _ _ high highFound
  have inRange := get_strip_in_range_bounds pl
  by_cases outside : low < 0 ∧ high < 0
  · rw [if_pos outside] at rest
    cases rest
  · rw [if_neg outside] at rest
    have range := Option.some.inj (Option.some.inj rest)
    have strips : 0 < pl.fNStrips := by omega
    have lowIn := inRange ((toStripFrame pl r.x0 r.y0).1 * 1e-3) strips
    have highIn := inRange ((toStripFrame pl r.x1 r.y1).1 * 1e-3) strips
    by_cases lowOut : low < 0
    · rw [if_pos lowOut] at range
      simp only at range
      split at range <;> cases range <;> omega
    · rw [if_neg lowOut] at range
      by_cases highOut : high < 0
      · rw [if_pos highOut] at range
        simp only at range
        split at range <;> cases range <;> omega
      · rw [if_neg highOut] at range
        simp only at range
        split at range <;> cases range <;> omega

end GEMPlane

namespace GEMHit

-- Every entry of the two arrays is one Cumulate accepts.
structure Within (nstrip : Nat) (vv : GEMHit F) : Prop where
  strips : ∀ i ∈ vv.fIdx, 0 ≤ i ∧ i < nstrip
  counts : ∀ a ∈ vv.fADC, 0 ≤ a

omit [Arith F] in
theorem fits_of_within (nstrip nsample : Nat) (some_strip : 0 < nstrip) (vv : GEMHit F) (within : Within nstrip vv) :
    vv.Fits nstrip nsample := by
  intro j _
  have strip := array_at_all (fun i => 0 ≤ i ∧ i < (nstrip : Int)) vv.fIdx 0 (toInt16 j) within.strips (by omega)
  refine ⟨strip.1, strip.2, fun k _ => ?_⟩
  exact array_at_all (fun a => 0 ≤ a) vv.fADC 0 _ within.counts (by decide)

omit [Arith F] in
theorem within_add_samples (nstrip : Nat) (dadc : Nat → Int) (counts : ∀ b, 0 ≤ dadc b) (ai : Int) (bs : List Nat)
    (vv : GEMHit F) (within : Within nstrip vv) :
    Within nstrip (bs.foldl (fun (vv : GEMHit F) (b : Nat) => vv.addSampleAt (dadc b) b ai) vv) ∧
      (bs.foldl (fun (vv : GEMHit F) (b : Nat) => vv.addSampleAt (dadc b) b ai) vv).fIdx = vv.fIdx := by
  refine foldl_invariant _ (fun _ acc => Within nstrip acc ∧ acc.fIdx = vv.fIdx) [] bs ?_ vv ⟨within, rfl⟩
  rintro _ b acc _ ⟨kept, same⟩
  exact ⟨⟨kept.strips, add_at_all _ _ _ _ kept.counts (counts b)⟩, same⟩

end GEMHit

-- The arrays of a hit while its strips are stored: kept are those of the
-- strips seen so far that carry a signal.
structure Storing (nstrip room : Nat) (iL : Int) (done : List Nat) (acc : GEMHit F × Nat) : Prop where
  within : acc.1.Within nstrip
  length : acc.1.fIdx.length = room
  kept : ∃ kept : List Nat, kept.Sublist done ∧ acc.2 = kept.length ∧
    (done.length ≤ room → acc.1.fIdx.take acc.2 = kept.map (fun j : Nat => iL + j))

theorem storing_step (par : Params F) (t0 : F) (charge : Nat → F) (nstrip room : Nat) (small : nstrip ≤ 32767)
    (narrow : room ≤ 32767) (iL : Int) (low : 0 ≤ iL) (done : List Nat) (j : Nat) (inside : iL + j < nstrip)
    (acc : GEMHit F × Nat) (storing : Storing nstrip room iL done acc) :
    Storing nstrip room iL (done ++ [j]) (storeStrip par t0 charge iL acc j) := by
  obtain ⟨within, length, kept, sublist, count, stored⟩ := storing
  have counts : ∀ b, 0 ≤ sampleADC par t0 (charge j) b := fun b => adc_convert_nonneg _ _ _ _
  obtain ⟨sampled, sameIdx⟩ := GEMHit.within_add_samples nstrip (sampleADC par t0 (charge j)) counts acc.2
    (List.range par.fEleSamplingPoints) acc.1 within
  have exact : toInt16 (iL + j) = iL + j := int16_exact _ (by omega) (by omega)
  simp only [storeStrip]
  generalize (List.range par.fEleSamplingPoints).foldl _ acc.1 = vv at sampled sameIdx ⊢
  by_cases signal : 0 < ((List.range par.fEleSamplingPoints).map (sampleADC par t0 (charge j))).sum
  · rw [if_pos signal]
    refine ⟨⟨?_, ?_⟩, ?_, kept ++ [j], List.Sublist.append sublist (List.Sublist.refl _), by simp [count], ?_⟩
    · rw [GEMHit.add_charge_at_idx, GEMHit.add_strip_at_idx, exact]
      exact add_at_all _ _ _ _ sampled.strips (by omega)
    · rw [GEMHit.add_charge_at_adc, GEMHit.add_strip_at_adc]
      exact sampled.counts
    · rw [GEMHit.add_charge_at_idx, GEMHit.add_strip_at_idx, add_at_length, sameIdx, length]
    · intro enough
      rw [List.length_append, List.length_singleton] at enough
      have short := sublist.length_le
      have slot : acc.2 < acc.1.fIdx.length := by omega
      have index : toInt16 acc.2 = acc.2 := int16_exact _ (by omega) (by omega)
      rw [GEMHit.add_charge_at_idx, GEMHit.add_strip_at_idx, sameIdx, exact, index, take_add_at _ _ _ slot,
        stored (by omega), List.map_append, List.map_singleton]
  · rw [if_neg signal]
    refine ⟨within, length, kept, sublist.trans (List.sublist_append_left _ _), count, fun enough => stored ?_⟩
    rw [List.length_append] at enough
    omega

-- The strips a finished hit names, in the order a reader meets them.
structure Names (nstrip : Nat) (vv : GEMHit F) (strips : List Nat) : Prop where
  ascending : strips.Pairwise (· < ·)
  inside : ∀ s ∈ strips, s < nstrip
  indices : vv.strips = strips.map (fun s : Nat => (s : Int))
  size : vv.fSize = strips.length

omit [Arith F] in
theorem names_numbers (nstrip : Nat) (vv : GEMHit F) (strips : List Nat) (names : Names nstrip vv strips) :
    vv.strips.map Int.toNat = strips := by
  rw [names.indices, List.map_map]
  exact List.map_id'' Int.toNat_natCast strips

-- The bins of the region still have Short_t numbers.
def BinsFit (par : Params F) (pl : GEMPlane F) (r : Region F) : Prop :=
  ∀ iL iU, stripRange pl r = some (some (iL, iU)) → (iU - iL + 1) * par.fXIntegralStepsPerPitch ≤ 32767

omit [Arith F] in
theorem strips_take (vv : GEMHit F) (ai : Nat) (small : ai ≤ 32767) (enough : ai ≤ vv.fIdx.length) :
    (vv.setSize ai).strips = vv.fIdx.take ai := by
  have size : (vv.setSize ai).fSize = ai := by
    rw [GEMHit.setSize, int16_exact _ (by omega) (by omega)]
  rw [GEMHit.strips, size, Int.toNat_natCast]
  apply List.ext_getElem
  · rw [List.length_map, List.length_range, List.length_take, Nat.min_eq_left enough]
  · intro i first second
    rw [List.length_map, List.length_range] at first
    rw [List.getElem_map, List.getElem_range, List.getElem_take, GEMHit.get_idx_nat _ i (by omega), GEMHit.set_size_idx]
    exact List.getD_eq_getElem _ _ (by omega)

omit [Arith F] in
theorem within_set_size (nstrip : Nat) (vv : GEMHit F) (n : Int) (within : vv.Within nstrip) :
    (vv.setSize n).Within nstrip := by
  rw [GEMHit.setSize]
  exact ⟨within.strips, within.counts⟩

omit [Arith F] in
theorem names_of_storing (nstrip room n : Nat) (narrow : room ≤ 32767) (iL : Int) (low : 0 ≤ iL)
    (inside : ∀ j < n, iL + j < nstrip) (enough : n ≤ room) (acc : GEMHit F × Nat)
    (storing : Storing nstrip room iL (List.range n) acc) :
    ∃ strips, Names nstrip (acc.1.setSize acc.2) strips := by
  obtain ⟨within, length, kept, sublist, count, stored⟩ := storing
  rw [List.length_range] at stored
  have short := sublist.length_le
  rw [List.length_range] at short
  have member : ∀ j ∈ kept, j < n := fun j listed => List.mem_range.mp (sublist.subset listed)
  refine ⟨kept.map (fun j : Nat => (iL + j).toNat), ?_, ?_, ?_, ?_⟩
  · have ordered : kept.Pairwise (· < ·) := List.pairwise_lt_range.sublist sublist
    refine List.Pairwise.map _ (fun i j before => ?_) ordered
    omega
  · intro s listed
    obtain ⟨j, keptStrip, rfl⟩ := List.mem_map.mp listed
    have bound := inside j (member j keptStrip)
    omega
  · rw [strips_take acc.1 acc.2 (by omega) (by omega), stored enough, List.map_map]
    refine List.map_congr_left (fun j _ => ?_)
    rw [Function.comp_apply, Int.toNat_of_nonneg (by omega)]
  · rw [GEMHit.setSize, int16_exact _ (by omega) (by omega), List.length_map, count]

theorem storing_start (nx nsample : Int) (t0 charge : F) (nstrip : Nat) (some_strip : 0 < nstrip) (iL : Int) :
    Storing nstrip (toInt16 nx).toNat iL [] (((GEMHit.new nx nsample).setTime t0).setHitCharge charge, 0) := by
  rw [GEMHit.setHitCharge, GEMHit.setTime, GEMHit.new]
  refine ⟨⟨?_, ?_⟩, List.length_replicate, [], List.Sublist.refl _, rfl, fun _ => rfl⟩
  · exact array_new_all (fun i => 0 ≤ i ∧ i < (nstrip : Int)) 0 _ (by omega)
  · exact array_new_all (fun a => 0 ≤ a) 0 _ (le_refl _)

-- Numbers that fit leave at least one array slot for every strip.
theorem bins_cover (par : Params F) (pl : GEMPlane F) (r : Region F) (iL iU : Int) (ordered : iL ≤ iU)
    (fit : (iU - iL + 1) * par.fXIntegralStepsPerPitch ≤ 32767) (bins : 0 < (grid par pl r iL iU).nx) :
    (iU - iL + 1).toNat ≤ (toInt16 (grid par pl r iL iU).nx).toNat := by
  have product : (grid par pl r iL iU).nx = toInt32 ((iU - iL + 1) * par.fXIntegralStepsPerPitch) := by rw [grid]
  have nonneg : 0 ≤ (iU - iL + 1) * (par.fXIntegralStepsPerPitch : Int) := Int.mul_nonneg (by omega) (Int.natCast_nonneg _)
  rw [product, int32_exact _ (by omega) (by omega)] at bins ⊢
  rw [int16_exact _ (by omega) fit]
  have steps : par.fXIntegralStepsPerPitch ≠ 0 := by
    intro zero
    rw [zero, Int.natCast_zero, Int.mul_zero] at bins
    omega
  have grown : (iU - iL + 1) * 1 ≤ (iU - iL + 1) * (par.fXIntegralStepsPerPitch : Int) :=
    Int.mul_le_mul_of_nonneg_left (by omega) (by omega)
  omega

-- The hit of one plane once all strips of its region are through.
def storedHit (par : Params F) (ion : IonState F) (pl : GEMPlane F) (r : Region F) (t0 : F) (iL iU : Int) : GEMHit F × Nat :=
  let g := grid par pl r iL iU
  (List.range (iU - iL + 1).toNat).foldl (storeStrip par t0 (stripCharge par g (fillBins par pl g ion)) iL)
    (((GEMHit.new g.nx par.fEleSamplingPoints).setTime t0).setHitCharge ion.fRTotalCharge, 0)

theorem ava_plane_region (par : Params F) (ion : IonState F) (pl : GEMPlane F) (r : Region F) (t0 : F) (iL iU : Int)
    (range : stripRange pl r = some (some (iL, iU))) :
    avaPlane par ion pl r t0 =
      if 0 < (grid par pl r iL iU).nx ∧ 0 < (grid par pl r iL iU).ny then
        .ok (some ((storedHit par ion pl r t0 iL iU).1.setSize (storedHit par ion pl r t0 iL iU).2))
      else .error .avaModel := by
  rw [avaPlane, range]
  rfl

theorem ava_plane_built (par : Params F) (ion : IonState F) (pl : GEMPlane F) (r : Region F) (t0 : F) (vv : GEMHit F)
    (built : avaPlane par ion pl r t0 = .ok (some vv)) :
    ∃ iL iU, stripRange pl r = some (some (iL, iU)) ∧ 0 < (grid par pl r iL iU).nx ∧
      (storedHit par ion pl r t0 iL iU).1.setSize (storedHit par ion pl r t0 iL iU).2 = vv := by
  cases range : stripRange pl r with
  | none =>
      rw [avaPlane, range] at built
      cases built
  | some found =>
      cases found with
      | none =>
          rw [avaPlane, range] at built
          cases built
      | some pair =>
          obtain ⟨iL, iU⟩ := pair
          rw [ava_plane_region par ion pl r t0 iL iU range] at built
          by_cases bins : 0 < (grid par pl r iL iU).nx ∧ 0 < (grid par pl r iL iU).ny
          · rw [if_pos bins] at built
            exact ⟨iL, iU, rfl, bins.1, Option.some.inj (Except.ok.inj built)⟩
          · rw [if_neg bins] at built
            cases built

theorem ava_plane_some (par : Params F) (ion : IonState F) (pl : GEMPlane F) (r : Region F) (t0 : F) (vv : GEMHit F)
    (small : pl.fNStrips ≤ 32767) (built : avaPlane par ion pl r t0 = .ok (some vv)) :
    0 < pl.fNStrips ∧ vv.Within pl.fNStrips.toNat ∧ (BinsFit par pl r → ∃ strips, Names pl.fNStrips.toNat vv strips) := by
  obtain ⟨iL, iU, range, bins, rfl⟩ := ava_plane_built par ion pl r t0 vv built
  obtain ⟨low, ordered, high⟩ := GEMPlane.strip_range_bounds pl r iL iU range
  have inside : ∀ j < (iU - iL + 1).toNat, iL + (j : Int) < (pl.fNStrips.toNat : Int) := by
    intro j below
    omega
  have narrow := int16_room (grid par pl r iL iU).nx
  have storing : Storing pl.fNStrips.toNat (toInt16 (grid par pl r iL iU).nx).toNat iL
      (List.range (iU - iL + 1).toNat) (storedHit par ion pl r t0 iL iU) :=
    foldl_invariant _ (Storing pl.fNStrips.toNat (toInt16 (grid par pl r iL iU).nx).toNat iL) [] _
      (fun done j acc member kept => storing_step par t0 _ _ _ (by omega) narrow iL low done j
        (inside j (List.mem_range.mp member)) acc kept) _
      (storing_start _ par.fEleSamplingPoints t0 ion.fRTotalCharge _ (by omega) iL)
  refine ⟨by omega, within_set_size _ _ _ storing.within, fun fit => ?_⟩
  exact names_of_storing _ _ _ narrow iL low inside (bins_cover par pl r iL iU ordered (fit iL iU range) bins) _ storing

theorem ava_plane_error (par : Params F) (ion : IonState F) (pl : GEMPlane F) (r : Region F) (t0 : F) (fault : Fault)
    (failed : avaPlane par ion pl r t0 = .error fault) : fault = .avaModel := by
  rw [avaPlane] at failed
  cases range : stripRange pl r with
  | none =>
      rw [range] at failed
      cases failed
      rfl
  | some found =>
      rw [range] at failed
      cases found with
      | none => cases failed
      | some pair =>
          simp only [check, bind, Except.bind, pure, Except.pure] at failed
          split at failed <;> cases failed
          rfl

theorem ava_model_some (par : Params F) (ion : IonState F) (ch : GEMChamber F) (xi xo : V3 F) (t0 : F)
    (vv : Fin 2 → GEMHit F) (built : avaModel par ion ch xi xo t0 = .ok (some vv)) :
    ∃ r, activeRegion ch (diffusionArea par ion xi xo) = some r ∧
      ∀ ip, avaPlane par ion (ch.fPlanes ip) r t0 = .ok (some (vv ip)) := by
  rw [avaModel] at built
  cases region : activeRegion ch (diffusionArea par ion xi xo) with
  | none =>
      rw [region] at built
      cases built
  | some r =>
      rw [region] at built
      simp only [bind, Except.bind] at built
      cases first : avaPlane par ion (ch.fPlanes 0) r t0 with
      | error fault =>
          rw [first] at built
          cases built
      | ok u =>
          rw [first] at built
          cases u with
          | none => cases built
          | some u =>
              cases second : avaPlane par ion (ch.fPlanes 1) r t0 with
              | error fault =>
                  rw [second] at built
                  cases built
              | ok v =>
                  rw [second] at built
                  cases v with
                  | none => cases built
                  | some v =>
                      refine ⟨r, rfl, fun ip => ?_⟩
                      rw [← Option.some.inj (Except.ok.inj built)]
                      rcases projections ip with rfl | rfl
                      · exact first
                      · exact second

theorem ava_model_error (par : Params F) (ion : IonState F) (ch : GEMChamber F) (xi xo : V3 F) (t0 : F) (fault : Fault)
    (failed : avaModel par ion ch xi xo t0 = .error fault) : fault = .avaModel := by
  rw [avaModel] at failed
  cases region : activeRegion ch (diffusionArea par ion xi xo) with
  | none =>
      rw [region] at failed
      cases failed
  | some r =>
      rw [region] at failed
      simp only [bind, Except.bind] at failed
      cases first : avaPlane par ion (ch.fPlanes 0) r t0 with
      | error fault' =>
          rw [first] at failed
          cases failed
          exact ava_plane_error par ion _ r t0 fault first
      | ok u =>
          rw [first] at failed
          cases u with
          | none => cases failed
          | some u =>
              cases second : avaPlane par ion (ch.fPlanes 1) r t0 with
              | error fault' =>
                  rw [second] at failed
                  cases failed
                  exact ava_plane_error par ion _ r t0 fault second
              | ok v =>
                  rw [second] at failed
                  cases failed

end Solgem
