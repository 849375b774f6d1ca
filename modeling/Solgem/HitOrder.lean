import Mathlib.Algebra.BigOperators.Group.Finset.Basic
import Solgem.Lib.Outcome
import Solgem.PlaneHistory
import Solgem.StripTimes

set_option autoImplicit false

namespace Solgem

open Lib DigitizedPlane

variable {F : Type}

-- One entry of the lists of a strip: cluster ID, weight and counts per sample.
def stripEntries [Arith F] (p : DigitizedPlane F) (s : Nat) : List (Int × F × List Int) :=
  (List.range (p.fStripClusters s).length).map (fun i =>
    ((p.fStripClusters s).getD i 0, (p.fStripWeightInCluster s).getD i 0.0,
      (List.range p.fNSamples).map (fun k => (p.fStripClusterADC k s).getD i 0)))

def Contribution.listing (nsample : Nat) (c : Contribution F) : Option (Int × F × List Int) :=
  c.entry.map (fun e => (e.1, e.2, (List.range nsample).map c.samples))

theorem parallel_lists [Arith F] (nsample : Nat) (cs : List (Contribution F)) :
    (List.range (cs.filterMap Contribution.cluster).length).map (fun i =>
        ((cs.filterMap Contribution.cluster).getD i 0, (cs.filterMap Contribution.weight).getD i 0.0,
          (List.range nsample).map (fun k => (cs.filterMap (Contribution.clusterADC k)).getD i 0))) =
      cs.filterMap (Contribution.listing nsample) := by
  induction cs with
  | nil => rfl
  | cons c rest ih =>
      cases entry : c.entry with
      | none => simpa [Contribution.cluster, Contribution.weight, Contribution.clusterADC, Contribution.listing, entry] using ih
      | some e =>
          simp only [List.filterMap_cons, Contribution.cluster, Contribution.weight, Contribution.clusterADC, Contribution.listing,
            entry, Option.map_some, List.length_cons, List.range_succ_eq_map, List.map_cons, List.map_map, List.getD_cons_zero]
          refine congrArg _ ?_
          rw [← ih]
          exact List.map_congr_left (fun i _ => rfl)

theorem represents_entries [Arith F] (p : DigitizedPlane F) (ledger : List (Contribution F)) (represents : Represents p ledger)
    (s : Nat) : stripEntries p s = listedAt Contribution.strip (Contribution.listing p.fNSamples) s ledger := by
  rw [listedAt, ← parallel_lists, stripEntries, represents.clusters, represents.weights, listedAt, listedAt]
  refine List.map_congr_left (fun i _ => ?_)
  have counts : (List.range p.fNSamples).map (fun k => (p.fStripClusterADC k s).getD i 0) = (List.range p.fNSamples).map
      (fun k => ((entriesAt Contribution.strip s ledger).filterMap (Contribution.clusterADC k)).getD i 0) :=
    List.map_congr_left (fun k sample => by rw [represents.clusterADC s k (List.mem_range.mp sample), listedAt])
  rw [counts]

structure SameStrips [Arith F] (p q : DigitizedPlane F) : Prop where
  adc : ∀ i < p.fNStrips * p.fNSamples, p.fStripADC i = q.fStripADC i
  tot : ∀ s < p.fNStrips, p.fTotADC s = q.fTotADC s
  type : ∀ s < p.fNStrips, p.fType s = q.fType s
  overThr : ∀ i, i ∈ p.fOverThr ↔ i ∈ q.fOverThr
  entries : ∀ s < p.fNStrips, (stripEntries p s).Perm (stripEntries q s)

theorem mask_at_perm (s : Nat) (ledger ledger' : List (Contribution F)) (perm : ledger.Perm ledger') :
    maskAt s ledger = maskAt s ledger' := by
  refine Nat.eq_of_testBit_eq (fun i => ?_)
  rw [Bool.eq_iff_iff, mask_at_bit, mask_at_bit]
  simp only [perm.mem_iff]

theorem represents_perm [Arith F] (p q : DigitizedPlane F) (ledger ledger' : List (Contribution F)) (shape : SameShape p q)
    (represents : Represents p ledger) (represents' : Represents q ledger') (perm : ledger.Perm ledger') : SameStrips p q := by
  have tot : ∀ s, p.fTotADC s = q.fTotADC s := by
    intro s
    rw [represents.tot, represents'.tot, shape.samples]
    exact total_at_perm _ _ _ perm
  refine ⟨fun i bound => ?_, fun s _ => tot s, fun s _ => ?_, fun i => ?_, fun s _ => ?_⟩
  · have width : 0 < p.fNSamples := Nat.pos_of_mul_pos_left (Nat.lt_of_le_of_lt (Nat.zero_le i) bound)
    have sample := Nat.mod_lt i width
    have flat : i / p.fNSamples * p.fNSamples + i % p.fNSamples = i := by
      rw [Nat.mul_comm]
      exact Nat.div_add_mod i p.fNSamples
    have left := represents.adc (i / p.fNSamples) (i % p.fNSamples) sample
    have right := represents'.adc (i / p.fNSamples) (i % p.fNSamples) (by rw [shape.samples]; exact sample)
    rw [getADC, flat] at left
    rw [getADC, shape.samples, flat] at right
    rw [left, right]
    exact total_at_perm _ _ _ perm
  · rw [represents.type, represents'.type]
    exact mask_at_perm s ledger ledger' perm
  · rw [represents.overThr, represents'.overThr, shape.strips, shape.level]
    simp only [tot]
  · rw [represents_entries p ledger represents, represents_entries q ledger' represents', shape.samples]
    exact listed_at_perm _ _ _ perm

variable [Arith F] {rng : Rng F}

-- A hit whose cross talk is fixed in advance: the shift of the induced signal
-- and its relative size, or none.
structure PlannedHit (F : Type) where
  vv : GEMHit F
  type : Nat
  clusterID : Int
  induced : Option (Int × F)

namespace PlannedHit

def cumulate (ct : CrossTalk F) (g : Gen) (p : DigitizedPlane F) (h : PlannedHit F) : Draw rng (DigitizedPlane F) :=
  p.cumulate ct g h.vv h.type h.clusterID

def AsDrawn (rng : Rng F) (ct : CrossTalk F) (g : Gen) (h : PlannedHit F) (st : rng.State) : Prop :=
  ∃ st', drawCrossTalk ct g st = .ok (h.induced, st')

def ledger (nstrip nsample : Nat) (h : PlannedHit F) : List (Contribution F) :=
  directLedger h.vv h.type h.clusterID nsample ++ inducedLedger nstrip h.vv h.induced

end PlannedHit

theorem planned_run (ct : CrossTalk F) (g : Gen) (hits : List (PlannedHit F)) (p : DigitizedPlane F)
    (ledger : List (Contribution F)) (represents : Represents p ledger) (wide : p.fNStrips ≤ 65535)
    (fits : ∀ h ∈ hits, h.vv.Fits p.fNStrips p.fNSamples) (st : rng.State)
    (drawn : Along (PlannedHit.cumulate ct g) (fun _ h st => h.AsDrawn rng ct g st) hits p st) :
    ∃ q st', hits.foldlM (PlannedHit.cumulate ct g) p st = .ok (q, st') ∧ SameShape p q ∧
      Represents q (ledger ++ hits.flatMap (PlannedHit.ledger p.fNStrips p.fNSamples)) := by
  induction hits generalizing p ledger st with
  | nil => exact ⟨p, st, rfl, ⟨rfl, rfl, rfl⟩, by simpa using represents⟩
  | cons h rest ih =>
      obtain ⟨⟨st1, draws⟩, later⟩ := drawn
      obtain ⟨mid, completed, shape, kept⟩ := cumulate_total ct g p ledger represents wide h.vv h.type h.clusterID
        (fits h (List.mem_cons_self ..)) st st1 h.induced draws
      obtain ⟨q, st', run, shape', final⟩ := ih mid _ kept (by rw [shape.strips]; exact wide)
        (fun other member => by rw [shape.strips, shape.samples]; exact fits other (List.mem_cons_of_mem h member)) st1
        (later mid st1 completed)
      refine ⟨q, st', ?_, same_shape_trans _ _ _ shape shape', ?_⟩
      · rw [List.foldlM_cons]
        exact (draw_bind_of _ _ mid st st1 completed).trans run
      · rw [shape.strips, shape.samples] at final
        rw [List.flatMap_cons, ← List.append_assoc]
        exact final

theorem reached_represents (ct : CrossTalk F) (g : Gen) (calls : List (PlaneCall F))
    (levels : ∀ thr, .threshold thr ∈ calls → 0 ≤ thr) (p p' : DigitizedPlane F) (ledger : List (Contribution F))
    (represents : Represents p ledger) (wide : p.fNStrips ≤ 65535) (level : 0 ≤ p.fThreshold) (st st' : rng.State)
    (ran : calls.foldlM (PlaneCall.apply ct g) p st = .ok (p', st')) :
    p'.fNStrips = p.fNStrips ∧ p'.fNSamples = p.fNSamples ∧ ∃ ledger', Represents p' ledger' := by
  induction calls generalizing p ledger st with
  | nil =>
      obtain ⟨rfl, rfl⟩ := (draw_pure_ok _ _ _ _).mp ran
      exact ⟨rfl, rfl, ledger, represents⟩
  | cons call rest ih =>
      obtain ⟨mid, stMid, applied, later⟩ := (draw_bind_ok _ _ _ _ _).mp ran
      have rest_levels : ∀ thr, .threshold thr ∈ rest → 0 ≤ thr := fun thr member => levels thr (List.mem_cons_of_mem _ member)
      cases call with
      | clear =>
          obtain ⟨rfl, rfl⟩ := (draw_pure_ok _ _ _ _).mp applied
          exact ih rest_levels p.clear [] (represents_clear p level) wide level _ later
      | threshold thr =>
          obtain ⟨rfl, rfl⟩ := (draw_pure_ok _ _ _ _).mp applied
          exact ih rest_levels (p.threshold thr) ledger (represents_threshold p ledger represents thr wide) wide
            (levels thr (List.mem_cons_self ..)) _ later
      | cumulate vv type clusterID =>
          obtain ⟨direct, _, first, _, _⟩ := cumulate_ok ct g p mid vv type clusterID st stMid applied
          have fits := cumulate_direct_fits p direct vv type clusterID first
          obtain ⟨induced, st1, draws, _, _⟩ := draw_cross_talk_total rng ct g st
          obtain ⟨q, completed, shape, kept⟩ := cumulate_total ct g p ledger represents wide vv type clusterID fits st st1
            induced draws
          rw [show PlaneCall.apply ct g p (.cumulate vv type clusterID) st = _ from completed] at applied
          cases applied
          obtain ⟨strips, samples, found⟩ := ih rest_levels mid _ kept (by rw [shape.strips]; exact wide)
            (by rw [shape.level]; exact level) stMid later
          exact ⟨strips.trans shape.strips, samples.trans shape.samples, found⟩

theorem cumulate_direct_weights (p p' : DigitizedPlane F) (vv : GEMHit F) (type : Nat) (clusterID : Int)
    (completed : p.cumulateDirect vv type clusterID = some p') (s : Nat) :
    p'.fStripWeightInCluster s = p.fStripWeightInCluster s ++
      listedAt Contribution.strip Contribution.weight s (directLedger vv type clusterID p.fNSamples) := by
  have loop := cumulate_direct_rule vv type clusterID
    (fun done q => q.fNSamples = p.fNSamples ∧ q.fStripWeightInCluster s = p.fStripWeightInCluster s ++
      listedAt Contribution.strip Contribution.weight s (done.map (directContribution vv type clusterID p.fNSamples)))
    ?_ p p' completed ⟨rfl, (List.append_nil _).symm⟩
  · exact loop.2
  · rintro done j q ⟨samples, weights⟩ _ _ _
    refine ⟨by rw [accept_samples, samples], ?_⟩
    rw [accept_weights, List.map_append, List.map_singleton, listed_at_append, ← List.append_assoc, ← weights, samples]
    by_cases here : (directContribution vv type clusterID p.fNSamples j).strip = s
    · rw [if_pos here, ← here, Function.update_self]
    · rw [if_neg here, Function.update_of_ne (Ne.symm here), List.append_nil]

theorem cumulate_induced_weights (p p' : DigitizedPlane F) (vv : GEMHit F) (induced : Option (Int × F))
    (completed : p.cumulateInduced vv induced = some p') (s : Nat) :
    p'.fStripWeightInCluster s = p.fStripWeightInCluster s := by
  cases induced with
  | none => rw [← Option.some.inj completed]
  | some pair =>
      obtain ⟨shift, factor⟩ := pair
      refine cumulate_induced_rule vv shift factor (fun _ q => q.fStripWeightInCluster s = p.fStripWeightInCluster s) ?_
        (fun _ _ _ weights _ => weights) p p' completed rfl
      intro _ j q weights _ _
      have silent : (inducedContribution vv shift factor j).weight.toList = [] := by
        rw [Contribution.weight, inducedContribution]
        rfl
      rw [accept_weights, silent, List.append_nil, Function.update_eq_self, weights]

theorem cumulate_weights (ct : CrossTalk F) (g : Gen) (p p' : DigitizedPlane F) (vv : GEMHit F) (type : Nat) (clusterID : Int)
    (st st' : rng.State) (completed : p.cumulate ct g vv type clusterID st = .ok (p', st')) (s : Nat) :
    p'.fStripWeightInCluster s = p.fStripWeightInCluster s ++
      listedAt Contribution.strip Contribution.weight s (directLedger vv type clusterID p.fNSamples) := by
  obtain ⟨direct, induced, first, _, second⟩ := cumulate_ok ct g p p' vv type clusterID st st' completed
  rw [cumulate_induced_weights direct p' vv induced second s, cumulate_direct_weights p direct vv type clusterID first s]

def storedADC (vv : GEMHit F) (nsample : Nat) : Int :=
  ((List.range vv.fSize.toNat).map (fun j : Nat => ((List.range nsample).map (fun k : Nat => vv.getADC j k)).sum)).sum

theorem listed_sum_all (nstrip : Nat) (weight : Contribution ℝ → Option ℝ) (ledger : List (Contribution ℝ))
    (inside : ∀ c ∈ ledger, c.strip < nstrip) :
    ∑ s ∈ Finset.range nstrip, (listedAt Contribution.strip weight s ledger).sum = (ledger.filterMap weight).sum := by
  induction ledger with
  | nil => simp [listedAt, entriesAt]
  | cons c rest ih =>
      have split : ∀ s, (listedAt Contribution.strip weight s (c :: rest)).sum =
          (if c.strip = s then (weight c).toList.sum else 0) + (listedAt Contribution.strip weight s rest).sum := by
        intro s
        by_cases here : c.strip = s
        · cases found : weight c <;> simp [listedAt, entriesAt, here, found]
        · simp [listedAt, entriesAt, here]
      have whole : (List.filterMap weight (c :: rest)).sum = (weight c).toList.sum + (rest.filterMap weight).sum := by
        cases found : weight c <;> simp [found]
      simp only [split]
      rw [Finset.sum_add_distrib, ih (fun d member => inside d (List.mem_cons_of_mem c member)), Finset.sum_ite_eq,
        if_pos (Finset.mem_range.mpr (inside c (List.mem_cons_self ..))), whole]

theorem temp_sum_real (vv : GEMHit ℝ) (j n : Nat) :
    tempSumADC vv j n = (((List.range n).map (fun k : Nat => vv.getADC j k)).sum : ℤ) := by
  induction n with
  | zero => norm_num [tempSumADC]
  | succ n ih =>
      rw [tempSumADC, ih, List.range_succ, List.map_append, List.sum_append, List.map_singleton, List.sum_singleton]
      by_cases empty : vv.getADC j n = 0
      · rw [if_pos empty, empty, add_zero]
      · rw [if_neg empty]
        exact (Int.cast_add _ _).symm

theorem weights_sum_one (vv : GEMHit ℝ) (type : Nat) (clusterID : Int) (nsample : Nat) (total : vv.fTotalADC = storedADC vv nsample)
    (positive : 0 < vv.fTotalADC) : ((directLedger vv type clusterID nsample).filterMap Contribution.weight).sum = 1 := by
  have weights : (directLedger vv type clusterID nsample).filterMap Contribution.weight =
      (List.range vv.fSize.toNat).map
        (fun j : Nat => (((List.range nsample).map (fun k : Nat => vv.getADC j k)).sum : ℤ) / (vv.fTotalADC : ℝ)) := by
    rw [directLedger, List.filterMap_map, ← List.filterMap_eq_map]
    refine List.filterMap_congr (fun j _ => ?_)
    rw [Function.comp_apply, Contribution.weight, directContribution, Option.map_some, temp_sum_real]
    rfl
  have nonzero : (vv.fTotalADC : ℝ) ≠ 0 := by
    exact_mod_cast positive.ne'
  have cast : ((List.range vv.fSize.toNat).map
      (fun j : Nat => ((((List.range nsample).map (fun k : Nat => vv.getADC j k)).sum : ℤ) : ℝ))).sum = vv.fTotalADC := by
    rw [total, storedADC, Int.cast_list_sum, List.map_map]
    rfl
  simp only [weights, div_eq_mul_inv]
  rw [List.sum_map_mul_right, cast, mul_inv_cancel₀ nonzero]

-- The weights a call pushes, strip by strip, add up to 1.
def PushesOne (p p' : DigitizedPlane ℝ) : Prop :=
  ∃ pushed : Nat → List ℝ, (∀ s, p'.fStripWeightInCluster s = p.fStripWeightInCluster s ++ pushed s) ∧
    ∑ s ∈ Finset.range p.fNStrips, (pushed s).sum = 1

theorem cumulate_pushes_one {rng : Rng ℝ} (ct : CrossTalk ℝ) (g : Gen) (p p' : DigitizedPlane ℝ) (vv : GEMHit ℝ) (type : Nat)
    (clusterID : Int) (total : vv.fTotalADC = storedADC vv p.fNSamples) (positive : 0 < vv.fTotalADC) (st st' : rng.State)
    (completed : p.cumulate ct g vv type clusterID st = .ok (p', st')) : PushesOne p p' := by
  refine ⟨_, cumulate_weights ct g p p' vv type clusterID st st' completed, ?_⟩
  rw [listed_sum_all, weights_sum_one vv type clusterID p.fNSamples total positive]
  intro c member
  obtain ⟨direct, _, first, _, _⟩ := cumulate_ok ct g p p' vv type clusterID st st' completed
  have fits := cumulate_direct_fits p direct vv type clusterID first
  obtain ⟨j, listed, rfl⟩ := List.mem_map.mp member
  obtain ⟨low, high, _⟩ := fits j (List.mem_range.mp listed)
  rw [direct_strip]
  omega

theorem hit_order_irrelevant (rng : Rng F) (ct : CrossTalk F) (g : Gen) (p0 p : DigitizedPlane F) (wide : p0.fNStrips ≤ 65535)
    (level : 0 ≤ p0.fThreshold) (calls : List (PlaneCall F)) (levels : ∀ thr, .threshold thr ∈ calls → 0 ≤ thr)
    (st0 st1 : rng.State) (reached : calls.foldlM (PlaneCall.apply ct g) p0.clear st0 = .ok (p, st1))
    (hits hits' : List (PlannedHit F)) (perm : hits.Perm hits') (fits : ∀ h ∈ hits, h.vv.Fits p.fNStrips p.fNSamples)
    (st st' : rng.State) (drawn : Along (PlannedHit.cumulate ct g) (fun _ h st => h.AsDrawn rng ct g st) hits p st)
    (drawn' : Along (PlannedHit.cumulate ct g) (fun _ h st => h.AsDrawn rng ct g st) hits' p st') :
    (∃ q q' last last', hits.foldlM (PlannedHit.cumulate ct g) p st = .ok (q, last) ∧
      hits'.foldlM (PlannedHit.cumulate ct g) p st' = .ok (q', last') ∧ SameStrips q q') ∧
    ∀ (rng : Rng ℝ) (ct : CrossTalk ℝ) (g : Gen) (p p' : DigitizedPlane ℝ) (vv : GEMHit ℝ) (type : Nat) (clusterID : Int)
      (st st' : rng.State), vv.fTotalADC = storedADC vv p.fNSamples → 0 < vv.fTotalADC →
      p.cumulate ct g vv type clusterID st = .ok (p', st') → PushesOne p p' := by
  refine ⟨?_, fun rng ct g p p' vv type clusterID st st' total positive =>
    cumulate_pushes_one ct g p p' vv type clusterID total positive st st'⟩
  obtain ⟨strips, samples, ledger, represents⟩ := reached_represents ct g calls levels p0.clear p []
    (represents_clear p0 level) wide level st0 st1 reached
  rw [← show p0.clear.fNStrips = p0.fNStrips from rfl, ← strips] at wide
  obtain ⟨q, last, run, shape, kept⟩ := planned_run ct g hits p ledger represents wide fits st drawn
  obtain ⟨q', last', run', shape', kept'⟩ := planned_run ct g hits' p ledger represents wide
    (fun h member => fits h (perm.mem_iff.mpr member)) st' drawn'
  have shapes : SameShape q q' :=
    ⟨shape'.samples.trans shape.samples.symm, shape'.strips.trans shape.strips.symm, shape'.level.trans shape.level.symm⟩
  exact ⟨q, q', last, last', run, run', represents_perm q q' _ _ shapes kept kept' ((perm.flatMap_right _).append_left ledger)⟩

-- Two hits on neighbouring strips, each inducing on the strip above it.
noncomputable def plannedHits : List (PlannedHit ℝ) := [⟨upper, 1, 1, some (1, 0.1)⟩, ⟨below 7, 2, 2, some (1, 0.1)⟩]

theorem hit_order_irrelevant_two_hits :
    (∃ q q' last last',
      (plannedHits.foldlM (PlannedHit.cumulate neighbour (.ran 0 0)) (new 2 1 0) : Draw (Rng.scripted ℝ) _) [] = .ok (q, last) ∧
      (plannedHits.reverse.foldlM (PlannedHit.cumulate neighbour (.ran 0 0)) (new 2 1 0) : Draw (Rng.scripted ℝ) _) [] =
        .ok (q', last') ∧ SameStrips q q') ∧
    ∃ p', (cumulate neighbour (.ran 0 0) (new 2 1 0) upper 1 1 : Draw (Rng.scripted ℝ) _) [] = .ok (p', []) ∧
      PushesOne (new 2 1 0) p' := by
  have fits : ∀ h ∈ plannedHits, h.vv.Fits 2 1 := by
    intro h member
    rcases List.mem_cons.mp member with rfl | rest
    · exact upper_fits
    · rw [List.mem_singleton.mp rest]
      exact below_fits 7
  have drawn : ∀ st, Along (PlannedHit.cumulate neighbour (.ran 0 0))
      (fun _ h st => h.AsDrawn (Rng.scripted ℝ) neighbour (.ran 0 0) st) plannedHits (new 2 1 0) st := by
    intro st
    exact ⟨⟨st, neighbour_draws st⟩, fun _ st' _ => ⟨⟨st', neighbour_draws st'⟩, fun _ _ _ => trivial⟩⟩
  have drawn' : ∀ st, Along (PlannedHit.cumulate neighbour (.ran 0 0))
      (fun _ h st => h.AsDrawn (Rng.scripted ℝ) neighbour (.ran 0 0) st) plannedHits.reverse (new 2 1 0) st := by
    intro st
    exact ⟨⟨st, neighbour_draws st⟩, fun _ st' _ => ⟨⟨st', neighbour_draws st'⟩, fun _ _ _ => trivial⟩⟩
  obtain ⟨order, weights⟩ := hit_order_irrelevant (Rng.scripted ℝ) neighbour (.ran 0 0) (new 2 1 0) (new 2 1 0) (by decide)
    (le_refl 0) [] (fun _ member => absurd member List.not_mem_nil) [] [] rfl plannedHits plannedHits.reverse
    (List.reverse_perm _).symm fits [] [] (drawn []) (drawn' [])
  obtain ⟨p', _, applied, _⟩ := two_hits_run 7
  exact ⟨order, p', applied, weights (Rng.scripted ℝ) neighbour (.ran 0 0) _ p' upper 1 1 [] [] rfl (by decide) applied⟩

end Solgem
