import Solgem.PlaneHistory
import Solgem.Lib.VecArray

set_option autoImplicit false

namespace Solgem

open Lib

def readSamplingPoints (elesamplingpoints : Int) : Nat :=
  if elesamplingpoints < 0 ∨ 10 < elesamplingpoints then 10 else elesamplingpoints.toNat

theorem read_sampling_points_iff (n : Nat) : (∃ elesamplingpoints, readSamplingPoints elesamplingpoints = n) ↔ n ≤ 10 := by
  constructor
  · rintro ⟨v, rfl⟩
    rw [readSamplingPoints]
    split <;> omega
  · intro few
    refine ⟨n, ?_⟩
    rw [readSamplingPoints, if_neg (by omega), Int.toNat_natCast]

-- fStripClusterADC as the class declares it: six vectors, each with the
-- entries of every strip.
abbrev SampleArrays := VecArray (List Int) 6

namespace SampleArrays

def clear (fNStrips fNSamples : Nat) (t : SampleArrays) : Option SampleArrays :=
  (List.range fNStrips).foldlM (fun t i => (List.range fNSamples).foldlM (fun t its => t.modifyEntry its i (fun _ => [])) t) t

-- The constructor: resize for every sample, then Clear.
def new (nstrip nsample : Nat) : Option SampleArrays :=
  ((List.range nsample).foldlM (fun (t : SampleArrays) i => t.resizeSlot i nstrip []) VecArray.declared).bind (clear nstrip nsample)

-- The push_back of Cumulate for strip j of a hit; the assert before it has
-- checked the strip.
def pushSamples {F : Type} (fNSamples : Nat) (vv : GEMHit F) (t : SampleArrays) (j : Nat) : Option SampleArrays :=
  (List.range fNSamples).foldlM (fun t (k : Nat) => t.modifyEntry k (vv.getIdx j).toNat (fun adc => adc ++ [vv.getADC j k])) t

def cumulate {F : Type} (fNSamples : Nat) (vv : GEMHit F) (t : SampleArrays) : Option SampleArrays :=
  (List.range vv.fSize.toNat).foldlM (pushSamples fNSamples vv) t

-- SetTreeStrips passes the strip as a Short_t, GetStripClusterADC takes it as
-- UInt_t.
def getStripClusterADC (t : SampleArrays) (istrip ss : Nat) : Option (List Int) := t.entry ss (toUInt32 (toInt16 istrip))

end SampleArrays

variable {F : Type}

def DigitizedPlane.sampleArrays (p : DigitizedPlane F) : SampleArrays := VecArray.tabulate p.fNSamples p.fNStrips p.fStripClusterADC

namespace SampleArrays

open VecArray

theorem clear_eq (fNStrips fNSamples : Nat) (few : fNSamples ≤ 6) (f : Nat → Nat → List Int) :
    clear fNStrips fNSamples (tabulate fNSamples fNStrips f) = some (tabulate fNSamples fNStrips (fun _ _ => [])) := by
  have loop : ∀ count, count ≤ fNStrips →
      (List.range count).foldlM (fun t i => (List.range fNSamples).foldlM (fun t its => t.modifyEntry its i (fun _ => [])) t)
        (tabulate fNSamples fNStrips f : SampleArrays) =
          some (tabulate fNSamples fNStrips (fun k s => if s < count then [] else f k s)) := by
    intro count
    induction count with
    | zero => simp
    | succ count ih =>
        intro below
        rw [List.range_succ, List.foldlM_append, ih (by omega)]
        simp only [Option.bind_eq_bind, Option.bind_some, List.foldlM_cons, List.foldlM_nil]
        rw [column_loop fNSamples fNStrips _ few count (by omega) (fun _ _ => []) fNSamples (Nat.le_refl _)]
        refine congrArg some (tabulate_congr _ _ _ _ (fun k sample s _ => ?_))
        by_cases here : s = count
        · simp [here, sample]
        · have order : s < count + 1 ↔ s < count := by omega
          simp [here, order]
  rw [clear, loop fNStrips (Nat.le_refl _)]
  exact congrArg some (tabulate_congr _ _ _ _ (fun _ _ s below => if_pos below))

theorem new_eq (nstrip nsample : Nat) (few : nsample ≤ 6) : new nstrip nsample = some (tabulate nsample nstrip (fun _ _ => [])) := by
  rw [new, resize_loop nstrip nsample few, Option.bind_some]
  exact clear_eq nstrip nsample few _

theorem new_overrun (nstrip nsample : Nat) (many : 6 < nsample) : new nstrip nsample = none := by
  rw [new, resize_overrun nstrip nsample many]
  rfl

theorem new_in_bounds_iff (nstrip nsample : Nat) : (new nstrip nsample).isSome ↔ nsample ≤ 6 := by
  constructor
  · intro made
    refine Nat.le_of_not_lt (fun many => ?_)
    rw [new_overrun nstrip nsample many] at made
    cases made
  · intro few
    rw [new_eq nstrip nsample few]
    rfl

theorem push_samples_eq (vv : GEMHit F) (fNSamples fNStrips j : Nat) (few : fNSamples ≤ 6) (low : 0 ≤ vv.getIdx j)
    (high : vv.getIdx j < fNStrips) (f : Nat → Nat → List Int) :
    pushSamples fNSamples vv (tabulate fNSamples fNStrips f) j =
      some (tabulate fNSamples fNStrips (fun k s => if s = (vv.getIdx j).toNat then f k s ++ [vv.getADC j k] else f k s)) := by
  rw [pushSamples, column_loop fNSamples fNStrips f few _ (by omega) _ fNSamples (Nat.le_refl _)]
  refine congrArg some (tabulate_congr _ _ _ _ (fun k sample s _ => ?_))
  simp only [sample, true_and]

theorem cumulate_in_bounds (p : DigitizedPlane F) (few : p.fNSamples ≤ 6) (vv : GEMHit F)
    (strips : ∀ j < vv.fSize.toNat, 0 ≤ vv.getIdx j ∧ vv.getIdx j < p.fNStrips) : (cumulate p.fNSamples vv p.sampleArrays).isSome := by
  obtain ⟨f', passed⟩ := loop_in_bounds p.fNSamples p.fNStrips (pushSamples p.fNSamples vv) (List.range vv.fSize.toNat)
    (fun j member f => ⟨_, push_samples_eq vv _ _ j few (strips j (List.mem_range.mp member)).1
      (strips j (List.mem_range.mp member)).2 f⟩) p.fStripClusterADC
  rw [cumulate, DigitizedPlane.sampleArrays, passed]
  rfl

theorem get_eq (p : DigitizedPlane F) (few : p.fNSamples ≤ 6) (istrip ss : Nat) (small : istrip < 32768) (below : istrip < p.fNStrips)
    (sample : ss < p.fNSamples) : getStripClusterADC p.sampleArrays istrip ss = some (p.fStripClusterADC ss istrip) := by
  have idx : toUInt32 (toInt16 istrip) = istrip := by
    rw [int16_exact _ (by omega) (by omega)]
    have exact := uint32_exact istrip (by omega) (by omega)
    omega
  rw [getStripClusterADC, DigitizedPlane.sampleArrays, idx, entry_tabulate _ _ _ ss istrip sample few below]

-- From strip 32768 on the number comes out negative, and then far too large.
theorem get_overrun (p : DigitizedPlane F) (few : p.fNSamples ≤ 6) (wide : p.fNStrips ≤ 65535) (istrip ss : Nat) (large : 32768 ≤ istrip)
    (below : istrip < p.fNStrips) (sample : ss < p.fNSamples) : getStripClusterADC p.sampleArrays istrip ss = none := by
  have inside : ss < 6 := by omega
  have idx : p.fNStrips ≤ toUInt32 (toInt16 istrip) := by
    simp only [toUInt32, toInt16, Int.bmod]
    omega
  rw [getStripClusterADC, DigitizedPlane.sampleArrays, entry, Vector.getElem?_eq_getElem inside, tabulate_slot, if_pos sample,
    Option.bind_some, List.getElem?_eq_none (by rwa [List.length_map, List.length_range])]

end SampleArrays

open DigitizedPlane

section
variable [Arith F] {rng : Rng F}

-- The checked array and the plane of the model go through the calls side by
-- side.
theorem clear_refines (p : DigitizedPlane F) (few : p.fNSamples ≤ 6) :
    SampleArrays.clear p.fNStrips p.fNSamples p.sampleArrays = some p.clear.sampleArrays :=
  SampleArrays.clear_eq p.fNStrips p.fNSamples few p.fStripClusterADC

theorem new_refines (nstrip nsample threshold : Int) (few : toUInt16 nsample ≤ 6) :
    SampleArrays.new (toUInt16 nstrip) (toUInt16 nsample) = some (DigitizedPlane.new nstrip nsample threshold : DigitizedPlane F).sampleArrays :=
  SampleArrays.new_eq _ _ few

theorem cumulate_direct_refines (p p' : DigitizedPlane F) (few : p.fNSamples ≤ 6) (vv : GEMHit F) (type : Nat) (clusterID : Int)
    (completed : p.cumulateDirect vv type clusterID = some p') :
    SampleArrays.cumulate p.fNSamples vv p.sampleArrays = some p'.sampleArrays := by
  refine run_simulated (fun q j q' => cumulateStrip vv type clusterID q j = some q') (SampleArrays.pushSamples p.fNSamples vv)
    sampleArrays (SameShape p) (fun q j q' shape pass => ?_) (List.range vv.fSize.toNat) p p' ((foldlM_run _ _ _ _).mp completed) ⟨rfl, rfl, rfl⟩
  obtain ⟨low, high, _, _, result⟩ := (cumulate_strip_some vv type clusterID q q' j _ _ _ rfl rfl rfl).mp pass
  rw [result]
  refine ⟨?_, same_shape_accept p q _ _ _ shape⟩
  rw [← shape.samples] at few ⊢
  rw [sampleArrays, SampleArrays.push_samples_eq vv _ _ j few low high, sampleArrays, accept_samples, accept_strips]
  refine congrArg some (VecArray.tabulate_congr _ _ _ _ (fun k sample s _ => ?_))
  rw [accept_cluster_adc _ _ _ _ s k sample, direct_strip]
  by_cases here : s = (vv.getIdx j).toNat
  · rw [if_pos here, if_pos here.symm, Contribution.clusterADC, directContribution, Option.map_some, Option.toList_some]
  · rw [if_neg here, if_neg (Ne.symm here), List.append_nil]

theorem cumulate_induced_refines (p p' : DigitizedPlane F) (vv : GEMHit F) (induced : Option (Int × F))
    (completed : p.cumulateInduced vv induced = some p') : p'.sampleArrays = p.sampleArrays := by
  cases induced with
  | none =>
      cases completed
      rfl
  | some pair =>
      obtain ⟨shift, factor⟩ := pair
      refine cumulate_induced_rule vv shift factor (fun _ q => q.sampleArrays = p.sampleArrays) ?_ (fun _ _ _ same _ => same) p p'
        completed rfl
      intro _ j q same _ _
      rw [← same, sampleArrays, sampleArrays, accept_samples, accept_strips]
      refine VecArray.tabulate_congr _ _ _ _ (fun k sample s _ => ?_)
      rw [accept_cluster_adc _ _ _ _ s k sample, inducedContribution]
      simp [Contribution.clusterADC]

theorem cumulate_refines (ct : CrossTalk F) (g : Gen) (p p' : DigitizedPlane F) (few : p.fNSamples ≤ 6) (vv : GEMHit F) (type : Nat)
    (clusterID : Int) (st st' : rng.State) (completed : p.cumulate ct g vv type clusterID st = .ok (p', st')) :
    SampleArrays.cumulate p.fNSamples vv p.sampleArrays = some p'.sampleArrays := by
  obtain ⟨direct, induced, first, _, second⟩ := cumulate_ok ct g p p' vv type clusterID st st' completed
  rw [cumulate_direct_refines p direct few vv type clusterID first, cumulate_induced_refines direct p' vv induced second]

def SampleArrays.apply (fNStrips fNSamples : Nat) (t : SampleArrays) : PlaneCall F → Option SampleArrays
  | .clear => SampleArrays.clear fNStrips fNSamples t
  | .cumulate vv _ _ => SampleArrays.cumulate fNSamples vv t
  | .threshold _ => some t

theorem plane_call_refines (ct : CrossTalk F) (g : Gen) (p p' : DigitizedPlane F) (few : p.fNSamples ≤ 6) (call : PlaneCall F)
    (st st' : rng.State) (ran : call.apply ct g p st = .ok (p', st')) :
    SampleArrays.apply p.fNStrips p.fNSamples p.sampleArrays call = some p'.sampleArrays ∧
      p'.fNSamples = p.fNSamples ∧ p'.fNStrips = p.fNStrips := by
  cases call with
  | clear =>
      obtain ⟨rfl, _⟩ := (draw_pure_ok _ _ _ _).mp ran
      exact ⟨clear_refines p few, rfl, rfl⟩
  | threshold thr =>
      obtain ⟨rfl, _⟩ := (draw_pure_ok _ _ _ _).mp ran
      exact ⟨rfl, rfl, rfl⟩
  | cumulate vv type clusterID =>
      have shape := cumulate_keeps (SameShape p) (fun q c time charge => same_shape_accept p q c time charge) ct g p p' vv type
        clusterID st st' ran ⟨rfl, rfl, rfl⟩
      exact ⟨cumulate_refines ct g p p' few vv type clusterID st st' ran, shape.samples, shape.strips⟩

theorem plane_calls_refine (ct : CrossTalk F) (g : Gen) (calls : List (PlaneCall F)) (p p' : DigitizedPlane F)
    (few : p.fNSamples ≤ 6) (st st' : rng.State) (ran : calls.foldlM (PlaneCall.apply ct g) p st = .ok (p', st')) :
    calls.foldlM (SampleArrays.apply p.fNStrips p.fNSamples) p.sampleArrays = some p'.sampleArrays := by
  induction calls generalizing p st with
  | nil =>
      obtain ⟨rfl, _⟩ := (draw_pure_ok _ _ _ _).mp ran
      rfl
  | cons call rest ih =>
      obtain ⟨mid, stMid, first, later⟩ := (draw_bind_ok _ _ _ _ _).mp ran
      obtain ⟨followed, samples, strips⟩ := plane_call_refines ct g p mid few call st stMid first
      rw [List.foldlM_cons, followed]
      rw [← samples] at few ⊢
      rw [← strips]
      exact ih mid few stMid later

-- From the constructor on, whatever calls a plane completes, its array goes
-- along in bounds and holds what the plane says.
theorem plane_run_refines (ct : CrossTalk F) (g : Gen) (calls : List (PlaneCall F)) (nstrip nsample threshold : Int)
    (few : toUInt16 nsample ≤ 6) (p : DigitizedPlane F) (st st' : rng.State)
    (ran : calls.foldlM (PlaneCall.apply ct g) (DigitizedPlane.new nstrip nsample threshold) st = .ok (p, st')) :
    (SampleArrays.new (toUInt16 nstrip) (toUInt16 nsample)).bind
      (fun t => calls.foldlM (SampleArrays.apply (toUInt16 nstrip) (toUInt16 nsample)) t) = some p.sampleArrays := by
  rw [new_refines (F := F) nstrip nsample threshold few]
  exact plane_calls_refine ct g calls (DigitizedPlane.new nstrip nsample threshold) p few st st' ran

end

end Solgem
