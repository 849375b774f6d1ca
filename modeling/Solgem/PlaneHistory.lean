import Solgem.PlaneRuns

set_option autoImplicit false

namespace Solgem

open Lib

variable {F : Type}

-- What the calls since the last Clear can have written.
def Logged (ct : CrossTalk F) (nstrip nsample : Nat) (ledger : List (Contribution F)) : Prop :=
  ∀ c ∈ ledger, c.Fits nstrip nsample ∧
    ((c.entry.isSome ∧ (c.mask = 1 <<< kPrimaryStrip ∨ c.mask = 1 <<< kSecondaryStrip)) ∨
      (c.entry = none ∧ c.mask = 1 <<< kInducedStrip ∧ ct.fDoCrossTalk = true))

theorem mask_at_bit (s i : Nat) (ledger : List (Contribution F)) :
    (maskAt s ledger).testBit i = true ↔ ∃ c ∈ ledger, c.strip = s ∧ c.mask.testBit i = true := by
  have fold : ∀ (cs : List (Contribution F)) (start : Nat),
      (cs.foldl (fun bits c => bits ||| c.mask) start).testBit i = true ↔
        start.testBit i = true ∨ ∃ c ∈ cs, c.mask.testBit i = true := by
    intro cs
    induction cs with
    | nil => simp
    | cons c rest ih =>
        intro start
        simp [ih, Nat.testBit_or, or_assoc]
  simp [maskAt, fold, entriesAt, and_assoc]

theorem listed_length (s : Nat) {B C : Type} (item : Contribution F → Option B) (other : Contribution F → Option C)
    (ledger : List (Contribution F)) (same : ∀ c, (item c).isSome = (other c).isSome) :
    (listedAt Contribution.strip item s ledger).length = (listedAt Contribution.strip other s ledger).length := by
  simp only [listedAt, List.length_filterMap_eq_countP, same]

theorem listed_sum_le (s k : Nat) (ledger : List (Contribution F)) (counts : ∀ c ∈ ledger, 0 ≤ c.samples k) :
    (listedAt Contribution.strip (Contribution.clusterADC k) s ledger).sum ≤
      totalAt Contribution.strip (fun c => c.samples k) s ledger := by
  have nonneg : ∀ c ∈ entriesAt Contribution.strip s ledger, 0 ≤ c.samples k :=
    fun c member => counts c (List.mem_filter.mp member).1
  rw [listedAt, totalAt]
  generalize entriesAt Contribution.strip s ledger = here at nonneg ⊢
  induction here with
  | nil => simp
  | cons c rest ih =>
      have first := nonneg c (List.mem_cons_self ..)
      have tail := ih (fun d member => nonneg d (List.mem_cons_of_mem c member))
      cases entry : c.entry with
      | none =>
          simp only [List.filterMap_cons, Contribution.clusterADC, entry, Option.map_none, List.map_cons, List.sum_cons]
          omega
      | some pair =>
          simp only [List.filterMap_cons, Contribution.clusterADC, entry, Option.map_some, List.map_cons, List.sum_cons]
          omega

theorem listed_sum_eq (s k : Nat) (ledger : List (Contribution F)) (direct : ∀ c ∈ ledger, c.entry.isSome) :
    (listedAt Contribution.strip (Contribution.clusterADC k) s ledger).sum =
      totalAt Contribution.strip (fun c => c.samples k) s ledger := by
  have listed : ∀ c ∈ entriesAt Contribution.strip s ledger, Contribution.clusterADC k c = some (c.samples k) := by
    intro c member
    obtain ⟨pair, entry⟩ := Option.isSome_iff_exists.mp (direct c (List.mem_filter.mp member).1)
    rw [Contribution.clusterADC, entry, Option.map_some]
  rw [listedAt, totalAt, List.filterMap_congr listed, List.filterMap_eq_map']

theorem logged_bits (ct : CrossTalk F) (nstrip nsample : Nat) (ledger : List (Contribution F))
    (logged : Logged ct nstrip nsample ledger) (c : Contribution F) (member : c ∈ ledger) :
    (c.mask.testBit kPrimaryStrip = true ↔ c.entry.isSome ∧ c.mask = 1 <<< kPrimaryStrip) ∧
      (c.mask.testBit kSecondaryStrip = true ↔ c.entry.isSome ∧ c.mask = 1 <<< kSecondaryStrip) ∧
      (c.mask.testBit kInducedStrip = true ↔ c.entry = none) := by
  rcases (logged c member).2 with ⟨direct, primary | secondary⟩ | ⟨induced, mask, _⟩
  · have listed : c.entry ≠ none := Option.isSome_iff_ne_none.mp direct
    simp [primary, direct, listed, kPrimaryStrip, kSecondaryStrip, kInducedStrip, Nat.testBit]
  · have listed : c.entry ≠ none := Option.isSome_iff_ne_none.mp direct
    simp [secondary, direct, listed, kPrimaryStrip, kSecondaryStrip, kInducedStrip, Nat.testBit]
  · simp [mask, induced, kPrimaryStrip, kSecondaryStrip, kInducedStrip, Nat.testBit]

variable [Arith F] {rng : Rng F}

-- The public calls that change a plane.
inductive PlaneCall (F : Type) where
  | clear
  | cumulate (vv : GEMHit F) (type : Nat) (clusterID : Int)
  | threshold (thr : Int)

namespace PlaneCall

open DigitizedPlane

def apply (ct : CrossTalk F) (g : Gen) (p : DigitizedPlane F) : PlaneCall F → Draw rng (DigitizedPlane F)
  | clear => pure p.clear
  | cumulate vv type clusterID => p.cumulate ct g vv type clusterID
  | threshold thr => pure (p.threshold thr)

-- The same call on the ledger, which never looks at the plane.
def log (ct : CrossTalk F) (g : Gen) (nstrip nsample : Nat) (ledger : List (Contribution F)) :
    PlaneCall F → Draw rng (List (Contribution F))
  | clear => pure []
  | cumulate vv type clusterID => do
      let induced ← drawCrossTalk ct g
      pure (ledger ++ (directLedger vv type clusterID nsample ++ inducedLedger nstrip vv induced))
  | threshold _ => pure ledger

-- A hit is cumulated as primary (1) or secondary (2).
def WellFormed (nstrip nsample : Nat) : PlaneCall F → Prop
  | clear => True
  | cumulate vv type _ => (type = 1 <<< kPrimaryStrip ∨ type = 1 <<< kSecondaryStrip) ∧ vv.Fits nstrip nsample
  | threshold thr => 0 ≤ thr

end PlaneCall

-- What every call leaves true of a plane, and what it says about the ledger.
structure PlaneInvariant (ct : CrossTalk F) (p : DigitizedPlane F) (ledger : List (Contribution F)) : Prop where
  total : ∀ s < p.fNStrips, p.fTotADC s = ((List.range p.fNSamples).map (p.getADC s)).sum
  distinct : p.fOverThr.Nodup
  overThr : ∀ i : Int, i ∈ p.fOverThr ↔ ∃ s < p.fNStrips, i = s ∧ p.fThreshold < p.fTotADC s
  rebuilt : ∀ i : Int, i ∈ p.fOverThr ↔ i ∈ (p.threshold p.fThreshold).fOverThr
  weights : ∀ s < p.fNStrips, (p.fStripWeightInCluster s).length = (p.fStripClusters s).length
  counts : ∀ s < p.fNStrips, ∀ k < p.fNSamples, (p.fStripClusterADC k s).length = (p.fStripClusters s).length
  bounded : ∀ s < p.fNStrips, ∀ k < p.fNSamples, (p.fStripClusterADC k s).sum ≤ p.getADC s k
  matched : ct.fDoCrossTalk = false →
    ∀ s < p.fNStrips, ∀ k < p.fNSamples, (p.fStripClusterADC k s).sum = p.getADC s k
  primary : ∀ s < p.fNStrips, (p.fType s).testBit kPrimaryStrip = true ↔
    ∃ c ∈ ledger, c.strip = s ∧ c.entry.isSome ∧ c.mask = 1 <<< kPrimaryStrip
  secondary : ∀ s < p.fNStrips, (p.fType s).testBit kSecondaryStrip = true ↔
    ∃ c ∈ ledger, c.strip = s ∧ c.entry.isSome ∧ c.mask = 1 <<< kSecondaryStrip
  induced : ∀ s < p.fNStrips, (p.fType s).testBit kInducedStrip = true ↔ ∃ c ∈ ledger, c.strip = s ∧ c.entry = none

namespace DigitizedPlane

omit [Arith F] in
theorem represents_threshold (p : DigitizedPlane F) (ledger : List (Contribution F)) (represents : Represents p ledger)
    (thr : Int) (wide : p.fNStrips ≤ 65535) : Represents (p.threshold thr) ledger where
  adc := represents.adc
  tot := represents.tot
  type := represents.type
  clusters := represents.clusters
  weights := represents.weights
  clusterADC := represents.clusterADC
  distinct := by
    apply List.Nodup.map_on _ (List.nodup_range.filter _)
    intro i first j second same
    have left := List.mem_range.mp (List.mem_filter.mp first).1
    have right := List.mem_range.mp (List.mem_filter.mp second).1
    exact int16_inj i j (by omega) (by omega) same
  overThr i := by
    simp only [threshold, List.mem_map, List.mem_filter, List.mem_range, decide_eq_true_eq]
    constructor
    · rintro ⟨s, ⟨below, above⟩, name⟩
      exact ⟨s, below, name.symm, above⟩
    · rintro ⟨s, below, name, above⟩
      exact ⟨s, ⟨below, above⟩, name.symm⟩

omit [Arith F] in
theorem plane_invariant_of (ct : CrossTalk F) (p : DigitizedPlane F) (ledger : List (Contribution F))
    (represents : Represents p ledger) (logged : Logged ct p.fNStrips p.fNSamples ledger)
    (small : p.fNStrips ≤ 32767) : PlaneInvariant ct p ledger where
  total s _ := by
    have samples : (List.range p.fNSamples).map (p.getADC s) =
        (List.range p.fNSamples).map (fun k => totalAt Contribution.strip (fun c => c.samples k) s ledger) :=
      List.map_congr_left (fun k member => represents.adc s k (List.mem_range.mp member))
    rw [samples, represents.tot, ← total_at_sum Contribution.strip (fun k c => c.samples k)]
    rfl
  distinct := represents.distinct
  overThr i := by
    rw [represents.overThr]
    refine exists_congr fun s => and_congr_right fun below => and_congr_left fun _ => ?_
    rw [int16_exact s (by omega) (by omega)]
  rebuilt i := by
    rw [represents.overThr, (represents_threshold p ledger represents p.fThreshold (by omega)).overThr]
    rfl
  weights s _ := by
    rw [represents.weights, represents.clusters]
    exact listed_length s _ _ ledger (fun c => by simp [Contribution.weight, Contribution.cluster])
  counts s _ k sample := by
    rw [represents.clusterADC s k sample, represents.clusters]
    exact listed_length s _ _ ledger (fun c => by simp [Contribution.clusterADC, Contribution.cluster])
  bounded s _ k sample := by
    rw [represents.clusterADC s k sample, represents.adc s k sample]
    exact listed_sum_le s k ledger (fun c member => (logged c member).1.2 k sample)
  matched off s _ k sample := by
    rw [represents.clusterADC s k sample, represents.adc s k sample]
    apply listed_sum_eq
    intro c member
    rcases (logged c member).2 with direct | ⟨_, _, requested⟩
    · exact direct.1
    · rw [off] at requested
      exact absurd requested (by decide)
  primary s _ := by
    rw [represents.type, mask_at_bit]
    exact exists_congr fun c => and_congr_right fun member => and_congr_right fun _ =>
      (logged_bits ct _ _ ledger logged c member).1
  secondary s _ := by
    rw [represents.type, mask_at_bit]
    exact exists_congr fun c => and_congr_right fun member => and_congr_right fun _ =>
      (logged_bits ct _ _ ledger logged c member).2.1
  induced s _ := by
    rw [represents.type, mask_at_bit]
    exact exists_congr fun c => and_congr_right fun member => and_congr_right fun _ =>
      (logged_bits ct _ _ ledger logged c member).2.2

theorem logged_append (ct : CrossTalk F) (nstrip nsample : Nat) (ledger : List (Contribution F))
    (logged : Logged ct nstrip nsample ledger) (vv : GEMHit F) (type : Nat) (clusterID : Int)
    (kind : type = 1 <<< kPrimaryStrip ∨ type = 1 <<< kSecondaryStrip) (fits : vv.Fits nstrip nsample)
    (induced : Option (Int × F)) (positive : ∀ pair ∈ induced, ¬ pair.2 ≤ 0.0)
    (requested : induced ≠ none → ct.fDoCrossTalk = true) :
    Logged ct nstrip nsample (ledger ++ (directLedger vv type clusterID nsample ++ inducedLedger nstrip vv induced)) := by
  intro c member
  rcases List.mem_append.mp member with old | new
  · exact logged c old
  cases List.mem_append.mp new with
  | inl direct =>
      obtain ⟨j, listed, rfl⟩ := List.mem_map.mp direct
      obtain ⟨low, high, counts⟩ := fits j (List.mem_range.mp listed)
      refine ⟨⟨?_, ?_⟩, .inl ⟨rfl, kind⟩⟩
      · rw [direct_strip]
        omega
      · simpa only [direct_samples] using counts
  | inr shifted =>
      cases induced with
      | none => exact absurd shifted (List.not_mem_nil)
      | some pair =>
          obtain ⟨shift, factor⟩ := pair
          obtain ⟨j, kept, rfl⟩ := List.mem_map.mp shifted
          obtain ⟨listed, readout⟩ := List.mem_filter.mp kept
          have inside := of_decide_eq_true readout
          obtain ⟨_, _, counts⟩ := fits j (List.mem_range.mp listed)
          refine ⟨⟨?_, fun k sample => ?_⟩, .inr ⟨rfl, rfl, requested (by simp)⟩⟩
          · rw [induced_strip]
            omega
          · exact Arith.trunc_mul_nonneg _ _ (counts k sample) (positive (shift, factor) rfl)

-- The invariant that carries a whole history of calls.
structure Tracks (ct : CrossTalk F) (nstrip nsample : Nat) (p : DigitizedPlane F) (ledger : List (Contribution F)) :
    Prop where
  strips : p.fNStrips = nstrip
  samples : p.fNSamples = nsample
  level : 0 ≤ p.fThreshold
  represents : Represents p ledger
  logged : Logged ct nstrip nsample ledger

theorem plane_call_step (ct : CrossTalk F) (g : Gen) (nstrip nsample : Nat) (wide : nstrip ≤ 65535)
    (p : DigitizedPlane F) (ledger : List (Contribution F)) (tracks : Tracks ct nstrip nsample p ledger)
    (call : PlaneCall F) (wellFormed : call.WellFormed nstrip nsample) (st : rng.State) :
    ∃ p' ledger' st', call.apply ct g p st = .ok (p', st') ∧ call.log ct g nstrip nsample ledger st = .ok (ledger', st') ∧
      Tracks ct nstrip nsample p' ledger' := by
  obtain ⟨strips, samples, level, represents, logged⟩ := tracks
  cases call with
  | clear =>
      refine ⟨p.clear, [], st, rfl, rfl, strips, samples, level, represents_clear p level, ?_⟩
      intro c member
      exact absurd member (List.not_mem_nil)
  | threshold thr =>
      refine ⟨p.threshold thr, ledger, st, rfl, rfl, strips, samples, wellFormed, ?_, logged⟩
      exact represents_threshold p ledger represents thr (by rw [strips]; exact wide)
  | cumulate vv type clusterID =>
      obtain ⟨kind, fits⟩ := wellFormed
      obtain ⟨induced, st', draws, positive, off⟩ := draw_cross_talk_total rng ct g st
      have requested : induced ≠ none → ct.fDoCrossTalk = true := by
        intro some_signal
        by_contra silent
        exact some_signal (off (by simpa using silent))
      rw [← strips] at wide
      obtain ⟨p', completed, shape, kept⟩ := cumulate_total ct g p ledger represents wide vv type clusterID
        (by rw [strips, samples]; exact fits) st st' induced draws
      refine ⟨p', ledger ++ (directLedger vv type clusterID nsample ++ inducedLedger nstrip vv induced), st', completed, ?_,
        shape.strips.trans strips, shape.samples.trans samples, by rw [shape.level]; exact level, ?_,
        logged_append ct nstrip nsample ledger logged vv type clusterID kind fits induced positive requested⟩
      · rw [PlaneCall.log, draw_bind_of _ _ induced st st' draws]
        rfl
      · rw [← strips, ← samples]
        exact kept

theorem plane_history (rng : Rng F) (ct : CrossTalk F) (g : Gen) (nstrip nsample : Nat) (wide : nstrip ≤ 65535)
    (calls : List (PlaneCall F)) (wellFormed : ∀ call ∈ calls, call.WellFormed nstrip nsample)
    (p : DigitizedPlane F) (ledger : List (Contribution F)) (tracks : Tracks ct nstrip nsample p ledger) (st : rng.State) :
    ∃ p' ledger' st', calls.foldlM (PlaneCall.apply ct g) p st = .ok (p', st') ∧
      calls.foldlM (PlaneCall.log ct g nstrip nsample) ledger st = .ok (ledger', st') ∧
      Tracks ct nstrip nsample p' ledger' := by
  induction calls generalizing p ledger st with
  | nil => exact ⟨p, ledger, st, rfl, rfl, tracks⟩
  | cons call rest ih =>
      obtain ⟨mid, logMid, stMid, applied, written, kept⟩ := plane_call_step ct g nstrip nsample wide p ledger tracks call
        (wellFormed call (List.mem_cons_self ..)) st
      obtain ⟨p', ledger', st', run, logRun, final⟩ :=
        ih (fun call member => wellFormed call (List.mem_cons_of_mem _ member)) mid logMid kept stMid
      refine ⟨p', ledger', st', ?_, ?_, final⟩
      · rw [List.foldlM_cons, draw_bind_of _ _ mid st stMid applied]
        exact run
      · rw [List.foldlM_cons, draw_bind_of _ _ logMid st stMid written]
        exact logRun

theorem tracks_new (ct : CrossTalk F) (nstrip nsample thr : Int) (level : 0 ≤ thr) :
    Tracks ct (toUInt16 nstrip) (toUInt16 nsample) (new nstrip nsample thr : DigitizedPlane F) [] where
  strips := rfl
  samples := rfl
  level := level
  represents := represents_clear (new nstrip nsample thr) level
  logged _ member := absurd member (List.not_mem_nil)

-- No assert of the plane fires and every list stays in step, whatever is
-- cleared, cumulated or thresholded, and whatever the cross talk draws.
theorem plane_calls_keep_invariant (rng : Rng F) (ct : CrossTalk F) (g : Gen) (nstrip nsample thr : Int)
    (strips : 0 ≤ nstrip ∧ nstrip ≤ 32767) (samples : 1 ≤ nsample ∧ nsample ≤ 6) (level : 0 ≤ thr)
    (calls : List (PlaneCall F)) (wellFormed : ∀ call ∈ calls, call.WellFormed nstrip.toNat nsample.toNat)
    (st : rng.State) :
    ∃ p ledger st', calls.foldlM (PlaneCall.apply ct g) (new nstrip nsample thr) st = .ok (p, st') ∧
      calls.foldlM (PlaneCall.log ct g nstrip.toNat nsample.toNat) [] st = .ok (ledger, st') ∧
      p.fNStrips = nstrip.toNat ∧ p.fNSamples = nsample.toNat ∧ PlaneInvariant ct p ledger := by
  have width : toUInt16 nstrip = nstrip.toNat := by
    have exact := uint16_exact nstrip (by omega) (by omega)
    omega
  have depth : toUInt16 nsample = nsample.toNat := by
    have exact := uint16_exact nsample (by omega) (by omega)
    omega
  have initial := tracks_new (F := F) ct nstrip nsample thr level
  rw [width, depth] at initial
  obtain ⟨p, ledger, st', run, logRun, tracks⟩ := plane_history rng ct g nstrip.toNat nsample.toNat (by omega) calls
    wellFormed _ [] initial st
  refine ⟨p, ledger, st', run, logRun, tracks.strips, tracks.samples, ?_⟩
  apply plane_invariant_of ct p ledger tracks.represents
  · rw [tracks.strips, tracks.samples]
    exact tracks.logged
  · rw [tracks.strips]
    omega

theorem plane_calls_keep_invariant_two_hits :
    let vv : GEMHit ℝ := ⟨[3, 5], [10, 20, 0, 7], [1, 1], 0, 2, 1, 37, 2⟩
    let calls := [PlaneCall.cumulate vv 1 1, .cumulate vv 2 2, .threshold 15, .clear, .cumulate vv 1 3]
    ∃ p ledger st', (calls.foldlM (PlaneCall.apply ⟨true, 1, 0.1, 0⟩ (.ran 0 0)) (new 8 2 0) : Draw (Rng.scripted ℝ) (DigitizedPlane ℝ)) [] =
        .ok (p, st') ∧
      (calls.foldlM (PlaneCall.log ⟨true, 1, 0.1, 0⟩ (.ran 0 0) 8 2) [] : Draw (Rng.scripted ℝ) (List (Contribution ℝ))) [] =
        .ok (ledger, st') ∧
      p.fNStrips = 8 ∧ p.fNSamples = 2 ∧ PlaneInvariant ⟨true, 1, 0.1, 0⟩ p ledger := by
  intro vv calls
  have fits : vv.Fits 8 2 := by
    intro j listed
    have cases : j = 0 ∨ j = 1 := by
      have bound : j < 2 := listed
      omega
    rcases cases with rfl | rfl <;> decide
  refine plane_calls_keep_invariant (Rng.scripted ℝ) ⟨true, 1, 0.1, 0⟩ (.ran 0 0) 8 2 0 (by decide) (by decide) (by decide)
    calls ?_ []
  intro call member
  simp only [calls, List.mem_cons, List.not_mem_nil, or_false] at member
  rcases member with rfl | rfl | rfl | rfl | rfl
  · exact ⟨.inl rfl, fits⟩
  · exact ⟨.inr rfl, fits⟩
  · exact (by decide : (0 : Int) ≤ 15)
  · exact trivial
  · exact ⟨.inl rfl, fits⟩

end DigitizedPlane

end Solgem
