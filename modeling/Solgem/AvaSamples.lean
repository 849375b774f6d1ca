import Mathlib.Algebra.Order.BigOperators.Group.List
import Mathlib.Algebra.Order.Group.Int
import Solgem.AvaStrips
import Solgem.Lib.Listing

set_option autoImplicit false

namespace Solgem

open Lib

variable {F : Type} [Arith F]

-- The ADC sum of all samples of one strip, which decides whether it is stored.
def posflag (par : Params F) (t0 us : F) : Int := ((List.range par.fEleSamplingPoints).map (sampleADC par t0 us)).sum

omit [Arith F] in
theorem add_samples (dadc : Nat → Int) (ai ns m : Nat) (slot : ai ≤ 32767) (few : m ≤ 10) (vv : GEMHit F) (samples : vv.fNsample = ns) :
    let written := (List.range m).foldl (fun (vv : GEMHit F) (b : Nat) => vv.addSampleAt (dadc b) b ai) vv
    written.fNsample = ns ∧ written.fIdx = vv.fIdx ∧
      written.fADC = (List.range m).foldl (fun xs b => xs.set (ai * ns + b) (dadc b)) vv.fADC ∧
      written.fTotalADC = vv.fTotalADC + ((List.range m).map dadc).sum := by
  induction m with
  | zero => exact ⟨samples, rfl, rfl, by simp⟩
  | succ m ih =>
      obtain ⟨same, idx, adc, total⟩ := ih (by omega)
      simp only [List.range_succ, List.foldl_append, List.foldl_cons, List.foldl_nil, List.map_append, List.map_singleton,
        List.sum_append, List.sum_singleton]
      generalize (List.range m).foldl (fun (vv : GEMHit F) (b : Nat) => vv.addSampleAt (dadc b) b ai) vv = written at same idx adc total ⊢
      refine ⟨by rw [GEMHit.add_sample_at_nsample, same], by rw [GEMHit.add_sample_at_idx, idx], ?_, ?_⟩
      · have place : toInt16 ai * written.fNsample + toInt16 m = ((ai * ns + m : Nat) : Int) := by
          rw [int16_exact _ (by omega) (by omega), int16_exact _ (by omega) (by omega), same]
          push_cast
          rfl
        rw [GEMHit.add_sample_at_adc, place, addAt, if_pos (Int.natCast_nonneg _), Int.toNat_natCast, adc]
      · rw [GEMHit.add_sample_at_total, total, Int.add_assoc]

-- The strips among those seen so far that carry a signal.
def carrying (par : Params F) (t0 : F) (charge : Nat → F) (done : List Nat) : List Nat :=
  done.filter (fun j => decide (0 < posflag par t0 (charge j)))

theorem carrying_append (par : Params F) (t0 : F) (charge : Nat → F) (done : List Nat) (j : Nat) :
    carrying par t0 charge (done ++ [j]) =
      if 0 < posflag par t0 (charge j) then carrying par t0 charge done ++ [j] else carrying par t0 charge done := by
  rw [carrying, List.filter_append, List.filter_singleton, carrying]
  by_cases signal : 0 < posflag par t0 (charge j)
  · rw [decide_eq_true signal, cond_true, if_pos signal]
  · rw [decide_eq_false signal, cond_false, if_neg signal, List.append_nil]

-- What storing a strip with a signal writes into the hit.
theorem store_strip_written (par : Params F) (t0 : F) (charge : Nat → F) (iL : Int) (low : 0 ≤ iL) (j : Nat) (high : iL + j ≤ 32767)
    (acc : GEMHit F × Nat) (slot : acc.2 ≤ 32767) (samples : acc.1.fNsample = par.fEleSamplingPoints)
    (signal : 0 < posflag par t0 (charge j)) :
    let next := storeStrip par t0 charge iL acc j
    next.2 = acc.2 + 1 ∧ next.1.fNsample = par.fEleSamplingPoints ∧ next.1.fIdx = acc.1.fIdx.set acc.2 (iL + j) ∧
      next.1.fADC = (List.range par.fEleSamplingPoints).foldl (fun xs b =>
        xs.set (acc.2 * par.fEleSamplingPoints + b) (sampleADC par t0 (charge j) b)) acc.1.fADC ∧
      next.1.fTotalADC = acc.1.fTotalADC + posflag par t0 (charge j) := by
  obtain ⟨same, idx, adc, total⟩ := add_samples (sampleADC par t0 (charge j)) acc.2 par.fEleSamplingPoints par.fEleSamplingPoints
    slot par.sampling_points acc.1 samples
  have exact : toInt16 (iL + j) = iL + j := int16_exact _ (by omega) (by omega)
  have index : toInt16 acc.2 = acc.2 := int16_exact _ (by omega) (by omega)
  have written : storeStrip par t0 charge iL acc j =
      ((((List.range par.fEleSamplingPoints).foldl (fun (vv : GEMHit F) (b : Nat) =>
        vv.addSampleAt (sampleADC par t0 (charge j) b) b acc.2) acc.1).addStripAt (iL + j) acc.2).addChargeAt (charge j) acc.2,
        acc.2 + 1) := if_pos signal
  rw [written]
  generalize (List.range par.fEleSamplingPoints).foldl _ acc.1 = vv at same idx adc total ⊢
  refine ⟨rfl, ?_, ?_, ?_, ?_⟩
  · rw [GEMHit.add_charge_at_nsample, GEMHit.add_strip_at_nsample, same]
  · rw [GEMHit.add_charge_at_idx, GEMHit.add_strip_at_idx, exact, index, addAt, if_pos (Int.natCast_nonneg _), Int.toNat_natCast, idx]
  · rw [GEMHit.add_charge_at_adc, GEMHit.add_strip_at_adc, adc]
  · rw [GEMHit.add_charge_at_total, GEMHit.add_strip_at_total, total, posflag]

-- The arrays of a hit hold exactly the carrying strips, with their samples.
structure Recording (par : Params F) (t0 : F) (charge : Nat → F) (room : Nat) (iL : Int) (done : List Nat) (acc : GEMHit F × Nat) :
    Prop where
  nsample : acc.1.fNsample = par.fEleSamplingPoints
  indices : acc.1.fIdx.length = room
  table : acc.1.fADC.length = par.fEleSamplingPoints * room
  count : acc.2 = (carrying par t0 charge done).length
  stored : ∀ i j : Nat, (carrying par t0 charge done)[i]? = some j → acc.1.fIdx.getD i 0 = iL + j ∧
    ∀ b < par.fEleSamplingPoints, acc.1.fADC.getD (i * par.fEleSamplingPoints + b) 0 = sampleADC par t0 (charge j) b
  total : acc.1.fTotalADC = ((carrying par t0 charge done).map (fun j => posflag par t0 (charge j))).sum

theorem recording_start (par : Params F) (t0 : F) (charge : Nat → F) (nx : Int) (hitCharge : F) (iL : Int) :
    Recording par t0 charge (toInt16 nx).toNat iL [] (((GEMHit.new nx par.fEleSamplingPoints).setTime t0).setHitCharge hitCharge, 0) := by
  have points := par.sampling_points
  have few : toInt16 par.fEleSamplingPoints = par.fEleSamplingPoints := int16_exact _ (by omega) (by omega)
  have table : (toInt16 par.fEleSamplingPoints * toInt16 nx).toNat = par.fEleSamplingPoints * (toInt16 nx).toNat := by
    rw [few]
    cases le_total 0 (toInt16 nx) with
    | inl some_room => rw [Int.toNat_mul (Int.natCast_nonneg _) some_room, Int.toNat_natCast]
    | inr no_room =>
        rw [Int.toNat_of_nonpos no_room, Int.toNat_of_nonpos (Int.mul_nonpos_of_nonneg_of_nonpos (Int.natCast_nonneg _) no_room), Nat.mul_zero]
  rw [GEMHit.setHitCharge, GEMHit.setTime, GEMHit.new]
  refine ⟨?_, List.length_replicate, ?_, ?_, fun i j entry => ?_, ?_⟩
  · dsimp only
    rw [few]
  · dsimp only
    rw [arrayNew, List.length_replicate, table]
  · rw [carrying, List.filter_nil, List.length_nil]
  · cases entry
  · rw [carrying, List.filter_nil, List.map_nil, List.sum_nil]

theorem recording_step (par : Params F) (t0 : F) (charge : Nat → F) (room : Nat) (narrow : room ≤ 32767) (iL : Int) (low : 0 ≤ iL)
    (done : List Nat) (j : Nat) (high : iL + j ≤ 32767) (enough : done.length + 1 ≤ room) (acc : GEMHit F × Nat)
    (recording : Recording par t0 charge room iL done acc) :
    Recording par t0 charge room iL (done ++ [j]) (storeStrip par t0 charge iL acc j) := by
  obtain ⟨nsample, indices, table, count, stored, total⟩ := recording
  have fewer : acc.2 ≤ done.length := count ▸ List.length_filter_le _ _
  have slot : acc.2 < acc.1.fIdx.length := indices ▸ fewer.trans_lt enough
  by_cases signal : 0 < posflag par t0 (charge j)
  · have grown : carrying par t0 charge (done ++ [j]) = carrying par t0 charge done ++ [j] :=
      (carrying_append par t0 charge done j).trans (if_pos signal)
    obtain ⟨next, samples, strips, adc, sum⟩ := store_strip_written par t0 charge iL low j high acc (by omega) nsample signal
    have bound : acc.2 * par.fEleSamplingPoints + par.fEleSamplingPoints ≤ acc.1.fADC.length := by
      rw [table, Nat.mul_comm par.fEleSamplingPoints, ← Nat.succ_mul]
      exact Nat.mul_le_mul_right _ (by omega)
    obtain ⟨length, entries⟩ := write_row (sampleADC par t0 (charge j)) 0 _ _ acc.1.fADC bound
    rw [← adc] at length entries
    refine ⟨samples, ?_, ?_, ?_, fun i k entry => ?_, ?_⟩
    · rw [strips, List.length_set, indices]
    · rw [length, table]
    · rw [next, grown, List.length_append, List.length_singleton, count]
    · rw [grown] at entry
      rw [strips]
      rcases (get_append_singleton _ _ _ _).mp entry with old | ⟨last, rfl⟩
      · have before := (List.getElem?_eq_some_iff.mp old).1
        rw [← count] at before
        obtain ⟨strip, adcs⟩ := stored i k old
        refine ⟨?_, fun b within => ?_⟩
        · rw [List.getD_eq_getElem?_getD, List.getElem?_set_ne (Nat.ne_of_gt before), ← List.getD_eq_getElem?_getD, strip]
        · rw [entries i b within, if_neg (Nat.ne_of_lt before), adcs b within]
      · rw [last, ← count]
        refine ⟨?_, fun b within => ?_⟩
        · rw [List.getD_eq_getElem?_getD, List.getElem?_set_self slot, Option.getD_some]
        · rw [entries acc.2 b within, if_pos rfl]
    · rw [sum, total, grown, List.map_append, List.map_singleton, List.sum_append, List.sum_singleton]
  · have same : carrying par t0 charge (done ++ [j]) = carrying par t0 charge done :=
      (carrying_append par t0 charge done j).trans (if_neg signal)
    have skipped : storeStrip par t0 charge iL acc j = acc := if_neg signal
    rw [skipped]
    rw [← same] at count stored total
    exact ⟨nsample, indices, table, count, stored, total⟩

theorem stored_hit_recording (par : Params F) (ion : IonState F) (pl : GEMPlane F) (r : Region F) (t0 : F) (iL iU : Int)
    (low : 0 ≤ iL) (ordered : iL ≤ iU) (high : iU ≤ 32767) (fit : (iU - iL + 1) * par.fXIntegralStepsPerPitch ≤ 32767)
    (bins : 0 < (grid par pl r iL iU).nx) :
    Recording par t0 (stripCharge par (grid par pl r iL iU) (fillBins par pl (grid par pl r iL iU) ion))
      (toInt16 (grid par pl r iL iU).nx).toNat iL (List.range (iU - iL + 1).toNat) (storedHit par ion pl r t0 iL iU) := by
  have enough := bins_cover par pl r iL iU ordered fit bins
  have narrow := int16_room (grid par pl r iL iU).nx
  refine foldl_invariant _ (fun done acc => done.length ≤ (toInt16 (grid par pl r iL iU).nx).toNat →
    Recording par t0 _ (toInt16 (grid par pl r iL iU).nx).toNat iL done acc) [] (List.range (iU - iL + 1).toNat) ?_ _
    (fun _ => recording_start par t0 _ _ ion.fRTotalCharge iL) (by rwa [List.nil_append, List.length_range])
  intro done j acc member kept room
  have inside := List.mem_range.mp member
  rw [List.length_append, List.length_singleton] at room
  exact recording_step par t0 _ _ narrow iL low done j (by omega) room acc (kept (by omega))

-- What Cumulate relies on in a hit of the strips from iL to iU.
structure GEMHit.WellFormed (iL iU : Int) (nsample : Nat) (vv : GEMHit F) : Prop where
  ascending : vv.strips.Pairwise (· < ·)
  inside : ∀ s ∈ vv.strips, iL ≤ s ∧ s ≤ iU
  signal : ∀ i < vv.fSize.toNat, ∃ b < nsample, 0 < vv.getADC i b
  total : vv.fTotalADC = ((List.range vv.fSize.toNat).map (fun i : Nat =>
    ((List.range nsample).map (fun b : Nat => vv.getADC i b)).sum)).sum

theorem positive_sample (par : Params F) (t0 us : F) (carries : 0 < posflag par t0 us) :
    ∃ b < par.fEleSamplingPoints, 0 < sampleADC par t0 us b := by
  have larger : ((List.range par.fEleSamplingPoints).map (fun _ => (0 : Int))).sum <
      ((List.range par.fEleSamplingPoints).map (sampleADC par t0 us)).sum := by
    rw [List.map_const', List.sum_replicate, smul_zero]
    exact carries
  obtain ⟨b, member, positive⟩ := List.exists_lt_of_sum_lt _ _ larger
  exact ⟨b, List.mem_range.mp member, positive⟩

section
variable (par : Params F) (t0 : F) (charge : Nat → F) (room : Nat) (narrow : room ≤ 32767) (iL : Int) (n : Nat) (enough : n ≤ room)
  (acc : GEMHit F × Nat) (recording : Recording par t0 charge room iL (List.range n) acc)
include narrow enough

theorem carrying_short : (carrying par t0 charge (List.range n)).length ≤ 32767 := by
  have fewer : (carrying par t0 charge (List.range n)).length ≤ n :=
    (List.length_filter_le _ _).trans (le_of_eq List.length_range)
  exact (fewer.trans enough).trans narrow

include recording

theorem recording_size : (acc.1.setSize acc.2).fSize.toNat = (carrying par t0 charge (List.range n)).length := by
  obtain ⟨_, _, _, count, _, _⟩ := recording
  rw [GEMHit.set_size_size, count, int16_nat _ (carrying_short par t0 charge room narrow n enough), Int.toNat_natCast]

theorem recording_strips :
    (acc.1.setSize acc.2).strips = (carrying par t0 charge (List.range n)).map (fun j : Nat => iL + (j : Int)) := by
  have short := carrying_short par t0 charge room narrow n enough
  have size := recording_size par t0 charge room narrow iL n enough acc recording
  obtain ⟨_, _, _, _, stored, _⟩ := recording
  rw [GEMHit.strips, size]
  refine map_range_entries _ _ _ (fun i j entry => ?_)
  rw [GEMHit.get_idx_nat _ i ((List.getElem?_eq_some_iff.mp entry).1.le.trans short), GEMHit.set_size_idx]
  exact (stored i j entry).1

theorem recording_readings (i j : Nat) (entry : (carrying par t0 charge (List.range n))[i]? = some j) (b : Nat)
    (within : b < par.fEleSamplingPoints) : (acc.1.setSize acc.2).getADC i b = sampleADC par t0 (charge j) b := by
  have short := carrying_short par t0 charge room narrow n enough
  obtain ⟨nsample, _, _, _, stored, _⟩ := recording
  have samples : (acc.1.setSize acc.2).fNsample = par.fEleSamplingPoints := by
    rw [GEMHit.setSize]
    exact nsample
  have place : (i : Int) * par.fEleSamplingPoints + b = ((i * par.fEleSamplingPoints + b : Nat) : Int) := by
    push_cast
    rfl
  rw [GEMHit.getADC, int16_nat i ((List.getElem?_eq_some_iff.mp entry).1.le.trans short),
    int16_nat b ((within.le.trans par.sampling_points).trans (by decide)), samples, GEMHit.set_size_adc, place, arrayAt,
    if_pos (Int.natCast_nonneg _), Int.toNat_natCast]
  exact (stored i j entry).2 b within

theorem recording_formed : (acc.1.setSize acc.2).WellFormed iL (iL + n - 1) par.fEleSamplingPoints := by
  have size := recording_size par t0 charge room narrow iL n enough acc recording
  have strips := recording_strips par t0 charge room narrow iL n enough acc recording
  have readings := recording_readings par t0 charge room narrow iL n enough acc recording
  obtain ⟨_, _, _, _, _, total⟩ := recording
  refine ⟨?_, ?_, ?_, ?_⟩
  · rw [strips]
    refine List.Pairwise.map _ (fun i j before => ?_) (List.pairwise_lt_range.sublist List.filter_sublist)
    omega
  · intro s member
    rw [strips] at member
    obtain ⟨j, kept, rfl⟩ := List.mem_map.mp member
    have within := List.mem_range.mp (List.filter_sublist.subset kept)
    omega
  · intro i before
    rw [size] at before
    have entry := List.getElem?_eq_getElem before
    have carries := of_decide_eq_true (List.mem_filter.mp (List.getElem_mem before)).2
    obtain ⟨b, within, positive⟩ := positive_sample par t0 _ carries
    exact ⟨b, within, (readings i _ entry b within).symm ▸ positive⟩
  · have sums : ∀ (i j : Nat), (carrying par t0 charge (List.range n))[i]? = some j →
        ((List.range par.fEleSamplingPoints).map (fun b : Nat => (acc.1.setSize acc.2).getADC i b)).sum =
          posflag par t0 (charge j) := by
      intro i j entry
      exact congrArg List.sum (List.map_congr_left fun b member => readings i j entry b (List.mem_range.mp member))
    have sameTotal : (acc.1.setSize acc.2).fTotalADC = acc.1.fTotalADC := by rw [GEMHit.setSize]
    rw [size, sameTotal, total, map_range_entries _ _ _ sums]

end

theorem ava_plane_formed (par : Params F) (ion : IonState F) (pl : GEMPlane F) (r : Region F) (t0 : F) (vv : GEMHit F)
    (small : pl.fNStrips ≤ 32767) (fit : BinsFit par pl r) (built : avaPlane par ion pl r t0 = .ok (some vv)) :
    ∃ iL iU, stripRange pl r = some (some (iL, iU)) ∧ 0 ≤ iL ∧ iL ≤ iU ∧ iU < pl.fNStrips ∧ vv.WellFormed iL iU par.fEleSamplingPoints := by
  obtain ⟨iL, iU, range, bins, rfl⟩ := ava_plane_built par ion pl r t0 vv built
  obtain ⟨low, ordered, high⟩ := GEMPlane.strip_range_bounds pl r iL iU range
  have narrow := int16_room (grid par pl r iL iU).nx
  have last : iL + ((iU - iL + 1).toNat : Int) - 1 = iU := by omega
  have formed := recording_formed par t0 _ _ narrow iL _ (bins_cover par pl r iL iU ordered (fit iL iU range) bins) _
    (stored_hit_recording par ion pl r t0 iL iU low ordered (by omega) (fit iL iU range) bins)
  rw [last] at formed
  exact ⟨iL, iU, range, low, ordered, high, formed⟩

end Solgem
