import Mathlib.Data.List.Range
import Solgem.DigitizedPlane
import Solgem.Lib.Journal
import Solgem.Lib.Runs

set_option autoImplicit false

namespace Solgem

open Lib

variable {F : Type}

-- What one pass of either loop of Cumulate adds to a strip: counts for every
-- sample and, for a direct hit only, one cluster entry.
structure Contribution (F : Type) where
  strip : Nat
  mask : Nat
  samples : Nat → Int
  entry : Option (Int × F)

namespace Contribution

def sum (c : Contribution F) (n : Nat) : Int := ((List.range n).map c.samples).sum

def cluster (c : Contribution F) : Option Int := c.entry.map Prod.fst
def weight (c : Contribution F) : Option F := c.entry.map Prod.snd
def clusterADC (k : Nat) (c : Contribution F) : Option Int := c.entry.map (fun _ => c.samples k)

end Contribution

namespace DigitizedPlane

-- The plane after the first n samples of a contribution.
def absorb (p : DigitizedPlane F) (idx : Nat) (samples : Nat → Int) (listed : Bool) : Nat → DigitizedPlane F
  | 0 => p
  | n + 1 =>
      let q := p.absorb idx samples listed n
      (if listed then q.pushClusterADC n idx (samples n) else q).addADC idx n (samples n)

theorem add_adc_zero (p : DigitizedPlane F) (idx k : Nat) : p.addADC idx k 0 = p := by
  simp [addADC]

theorem absorb_frame (p : DigitizedPlane F) (idx : Nat) (samples : Nat → Int) (listed : Bool) (n : Nat) :
    p.absorb idx samples listed n =
      { p with
        fStripADC := (p.absorb idx samples listed n).fStripADC
        fTotADC := (p.absorb idx samples listed n).fTotADC
        fStripClusterADC := (p.absorb idx samples listed n).fStripClusterADC } := by
  induction n with
  | zero => rfl
  | succ n ih =>
      rw [absorb, ih]
      cases listed <;> rfl

theorem absorb_adc (p : DigitizedPlane F) (idx : Nat) (samples : Nat → Int) (listed : Bool) (n s k : Nat)
    (bound : n ≤ p.fNSamples) (sample : k < p.fNSamples) :
    (p.absorb idx samples listed n).getADC s k = p.getADC s k + if idx = s ∧ k < n then samples k else 0 := by
  induction n with
  | zero => simp [absorb]
  | succ n ih =>
      have kept := ih (by omega)
      have width : (p.absorb idx samples listed n).fNSamples = p.fNSamples := by rw [absorb_frame]
      have step : (p.absorb idx samples listed (n + 1)).getADC s k =
          (p.absorb idx samples listed n).getADC s k + if idx = s ∧ k = n then samples n else 0 := by
        by_cases here : s = idx ∧ k = n
        · obtain ⟨rfl, rfl⟩ := here
          cases listed <;> simp [absorb, getADC, addADC, pushClusterADC]
        · have away : s * p.fNSamples + k ≠ idx * p.fNSamples + n := fun same =>
            here (flat_index_inj p.fNSamples s idx k n sample (by omega) same)
          have other : ¬ (idx = s ∧ k = n) := fun both => here ⟨both.1.symm, both.2⟩
          cases listed <;> simp [absorb, getADC, addADC, pushClusterADC, width, away, other]
      rw [step, kept]
      by_cases strip : idx = s
      · rcases Nat.lt_trichotomy k n with before | here | after
        · simp [strip, before, Nat.ne_of_lt before, Nat.lt_succ_of_lt before]
        · simp [strip, here]
        · have late : ¬ k < n + 1 := by omega
          simp [strip, late, Nat.ne_of_gt after, Nat.lt_asymm after]
      · simp [strip]

theorem absorb_tot (p : DigitizedPlane F) (idx : Nat) (samples : Nat → Int) (listed : Bool) (n s : Nat) :
    (p.absorb idx samples listed n).fTotADC s =
      p.fTotADC s + if idx = s then ((List.range n).map samples).sum else 0 := by
  induction n with
  | zero => simp [absorb]
  | succ n ih =>
      have step : (p.absorb idx samples listed (n + 1)).fTotADC s =
          (p.absorb idx samples listed n).fTotADC s + if idx = s then samples n else 0 := by
        by_cases same : s = idx
        · subst same
          cases listed <;> simp [absorb, addADC, pushClusterADC]
        · cases listed <;> simp [absorb, addADC, pushClusterADC, same, Ne.symm same]
      rw [step, ih]
      by_cases same : idx = s
      · simp [same, List.range_succ, Int.add_assoc]
      · simp [same]

theorem absorb_cluster_adc (p : DigitizedPlane F) (idx : Nat) (samples : Nat → Int) (listed : Bool) (n s k : Nat) :
    (p.absorb idx samples listed n).fStripClusterADC k s =
      p.fStripClusterADC k s ++ if idx = s ∧ listed ∧ k < n then [samples k] else [] := by
  induction n with
  | zero => simp [absorb]
  | succ n ih =>
      cases listed with
      | false => simpa [absorb, addADC] using ih
      | true =>
          have step : (p.absorb idx samples true (n + 1)).fStripClusterADC k s =
              (p.absorb idx samples true n).fStripClusterADC k s ++ if idx = s ∧ k = n then [samples n] else [] := by
            by_cases sample : k = n
            · subst sample
              by_cases same : s = idx
              · subst same
                simp [absorb, addADC, pushClusterADC]
              · simp [absorb, addADC, pushClusterADC, same, Ne.symm same]
            · simp [absorb, addADC, pushClusterADC, sample]
          rw [step, ih]
          by_cases strip : idx = s
          · rcases Nat.lt_trichotomy k n with before | here | after
            · simp [strip, before, Nat.ne_of_lt before, Nat.lt_succ_of_lt before]
            · simp [strip, here]
            · have late : ¬ k < n + 1 := by omega
              simp [strip, late, Nat.ne_of_gt after, Nat.lt_asymm after]
          · simp [strip]

variable [Arith F]

-- The value of tempSumADC after n samples.
def tempSumADC (vv : GEMHit F) (j : Nat) : Nat → F
  | 0 => 0.0
  | n + 1 => if vv.getADC j n = 0 then tempSumADC vv j n else tempSumADC vv j n + Arith.ofInt (vv.getADC j n)

def directContribution (vv : GEMHit F) (type : Nat) (clusterID : Int) (nsample j : Nat) : Contribution F where
  strip := (vv.getIdx j).toNat
  mask := type
  samples k := vv.getADC j k
  entry := some (clusterID, tempSumADC vv j nsample / Arith.ofInt vv.fTotalADC)

def inducedContribution (vv : GEMHit F) (shift : Int) (factor : F) (j : Nat) : Contribution F where
  strip := (vv.getIdx j + shift).toNat
  mask := 1 <<< kInducedStrip
  samples k := Arith.trunc (Arith.ofInt (vv.getADC j k) * factor)
  entry := none

@[simp] theorem direct_strip (vv : GEMHit F) (type : Nat) (clusterID : Int) (nsample j : Nat) :
    (directContribution vv type clusterID nsample j).strip = (vv.getIdx j).toNat := by
  rw [directContribution]

@[simp] theorem direct_samples (vv : GEMHit F) (type : Nat) (clusterID : Int) (nsample j k : Nat) :
    (directContribution vv type clusterID nsample j).samples k = vv.getADC j k := by
  rw [directContribution]

@[simp] theorem induced_strip (vv : GEMHit F) (shift : Int) (factor : F) (j : Nat) :
    (inducedContribution vv shift factor j).strip = (vv.getIdx j + shift).toNat := by
  rw [inducedContribution]

theorem cumulate_samples (vv : GEMHit F) (j idx : Nat) (p : DigitizedPlane F) (n : Nat) :
    (List.range n).foldlM (cumulateSample vv j idx) (p, 0.0) =
      if ∀ k < n, 0 ≤ vv.getADC j k then some (p.absorb idx (fun k => vv.getADC j k) true n, tempSumADC vv j n)
      else none := by
  induction n with
  | zero => simp [absorb, tempSumADC]
  | succ n ih =>
      rw [List.range_succ, List.foldlM_append, ih]
      by_cases before : ∀ k < n, 0 ≤ vv.getADC j k
      · by_cases count : 0 ≤ vv.getADC j n
        · have all : ∀ k < n + 1, 0 ≤ vv.getADC j k := Nat.forall_lt_succ_right.mpr ⟨before, count⟩
          rw [if_pos before, if_pos all]
          by_cases empty : vv.getADC j n = 0 <;>
            simp [cumulateSample, absorb, tempSumADC, count, empty, add_adc_zero]
        · have bad : ¬ ∀ k < n + 1, 0 ≤ vv.getADC j k := fun all => count (all n (by omega))
          rw [if_pos before, if_neg bad]
          simp [cumulateSample, count]
      · have bad : ¬ ∀ k < n + 1, 0 ≤ vv.getADC j k := fun all => before (fun k below => all k (by omega))
        rw [if_neg before, if_neg bad]
        rfl

theorem induce_samples (vv : GEMHit F) (factor : F) (j idx : Nat) (p : DigitizedPlane F) (n : Nat) :
    (List.range n).foldlM (induceSample vv factor j idx) p =
      if ∀ k < n, 0 ≤ vv.getADC j k then
        some (p.absorb idx (fun k => Arith.trunc (Arith.ofInt (vv.getADC j k) * factor)) false n)
      else none := by
  induction n with
  | zero => simp [absorb]
  | succ n ih =>
      rw [List.range_succ, List.foldlM_append, ih]
      by_cases before : ∀ k < n, 0 ≤ vv.getADC j k
      · by_cases count : 0 ≤ vv.getADC j n
        · have all : ∀ k < n + 1, 0 ≤ vv.getADC j k := Nat.forall_lt_succ_right.mpr ⟨before, count⟩
          rw [if_pos before, if_pos all]
          by_cases empty : Arith.trunc (Arith.ofInt (vv.getADC j n) * factor) = 0 <;>
            simp [induceSample, absorb, count, empty, add_adc_zero]
        · have bad : ¬ ∀ k < n + 1, 0 ≤ vv.getADC j k := fun all => count (all n (by omega))
          rw [if_pos before, if_neg bad]
          simp [induceSample, count]
      · have bad : ¬ ∀ k < n + 1, 0 ≤ vv.getADC j k := fun all => before (fun k below => all k (by omega))
        rw [if_neg before, if_neg bad]
        rfl

-- The plane once the counts of a contribution are in and before the
-- bookkeeping at the end of its pass.
def absorbed (p : DigitizedPlane F) (c : Contribution F) (time charge : F) : DigitizedPlane F :=
  (p.mark c.strip c.mask time charge).absorb c.strip c.samples c.entry.isSome p.fNSamples

def crosses (p : DigitizedPlane F) (c : Contribution F) (time charge : F) : Bool :=
  !decide (p.fThreshold < p.fTotADC c.strip) &&
    decide ((p.absorbed c time charge).fThreshold < (p.absorbed c time charge).fTotADC c.strip)

def accept (p : DigitizedPlane F) (c : Contribution F) (time charge : F) : DigitizedPlane F :=
  let q := p.absorbed c time charge
  { q with
    fOverThr := if p.crosses c time charge then q.fOverThr ++ [toInt16 c.strip] else q.fOverThr
    fStripClusters := Function.update q.fStripClusters c.strip (q.fStripClusters c.strip ++ c.cluster.toList)
    fStripWeightInCluster :=
      Function.update q.fStripWeightInCluster c.strip (q.fStripWeightInCluster c.strip ++ c.weight.toList) }

-- A strip that crosses the threshold needs room in fOverThr.
def Room (p : DigitizedPlane F) (c : Contribution F) (time charge : F) : Prop :=
  p.crosses c time charge = true → p.fOverThr.length < p.fNStrips

theorem absorbed_frame (p : DigitizedPlane F) (c : Contribution F) (time charge : F) :
    p.absorbed c time charge =
      { p.mark c.strip c.mask time charge with
        fStripADC := (p.absorbed c time charge).fStripADC
        fTotADC := (p.absorbed c time charge).fTotADC
        fStripClusterADC := (p.absorbed c time charge).fStripClusterADC } := by
  rw [absorbed, ← absorb_frame]

theorem record_over_thr_some (p q r : DigitizedPlane F) (c : Contribution F) (time charge : F)
    (counted : q = p.absorbed c time charge) :
    q.recordOverThr (!decide (p.fThreshold < p.fTotADC c.strip)) c.strip = some r ↔
      p.Room c time charge ∧
        r = { q with fOverThr := if p.crosses c time charge then q.fOverThr ++ [toInt16 c.strip] else q.fOverThr } := by
  have entries : q.fOverThr = p.fOverThr := by rw [counted, absorbed_frame]; rfl
  have strips : q.fNStrips = p.fNStrips := by rw [counted, absorbed_frame]; rfl
  have crossing : ((!decide (p.fThreshold < p.fTotADC c.strip)) = true ∧ q.fThreshold < q.fTotADC c.strip) ↔
      p.crosses c time charge = true := by
    rw [counted]
    simp [crosses]
  simp only [recordOverThr, crossing, Room, ← entries, ← strips]
  by_cases crossed : p.crosses c time charge = true
  · by_cases room : q.fOverThr.length < q.fNStrips <;> simp [crossed, room, eq_comm]
  · simp only [crossed, if_false, Bool.false_eq_true, false_implies, true_and, Option.some.injEq]
    exact eq_comm

theorem cumulate_strip_some (vv : GEMHit F) (type : Nat) (clusterID : Int) (p p' : DigitizedPlane F) (j : Nat)
    (c : Contribution F) (time charge : F) (added : c = directContribution vv type clusterID p.fNSamples j)
    (at_time : time = earlier (p.fTime c.strip) vv.fTime) (collected : charge = vv.getCharge j) :
    cumulateStrip vv type clusterID p j = some p' ↔
      0 ≤ vv.getIdx j ∧ vv.getIdx j < p.fNStrips ∧ (∀ k < p.fNSamples, 0 ≤ vv.getADC j k) ∧
        p.Room c time charge ∧ p' = p.accept c time charge := by
  have strip : (vv.getIdx j).toNat = c.strip := by rw [added, direct_strip]
  have counted : (p.mark c.strip type time charge).absorb c.strip (fun k => vv.getADC j k) true p.fNSamples =
      p.absorbed c time charge := by
    simp only [absorbed, added, directContribution, Option.isSome_some]
  have pushed : ∀ q : DigitizedPlane F,
      q.pushCluster c.strip (tempSumADC vv j p.fNSamples / Arith.ofInt vv.fTotalADC) clusterID =
        { q with
          fStripClusters := Function.update q.fStripClusters c.strip (q.fStripClusters c.strip ++ c.cluster.toList)
          fStripWeightInCluster :=
            Function.update q.fStripWeightInCluster c.strip (q.fStripWeightInCluster c.strip ++ c.weight.toList) } := by
    intro q
    simp only [pushCluster, added, directContribution, Contribution.cluster, Contribution.weight, Option.map_some,
      Option.toList_some]
  have samples : (p.mark c.strip type time charge).fNSamples = p.fNSamples := rfl
  simp only [cumulateStrip, cumulate_samples, strip, ← at_time, ← collected]
  by_cases inside : 0 ≤ vv.getIdx j ∧ vv.getIdx j < p.fNStrips
  · rw [if_pos inside]
    by_cases counts : ∀ k < p.fNSamples, 0 ≤ vv.getADC j k
    · rw [if_pos counts, Option.bind_some, counted, Option.map_eq_some_iff]
      constructor
      · rintro ⟨r, record, result⟩
        obtain ⟨room, recorded⟩ := (record_over_thr_some p _ r c time charge rfl).mp record
        refine ⟨inside.1, inside.2, counts, room, ?_⟩
        rw [← result, pushed, recorded, accept]
      · rintro ⟨_, _, _, room, result⟩
        refine ⟨_, (record_over_thr_some p _ _ c time charge rfl).mpr ⟨room, rfl⟩, ?_⟩
        rw [result, pushed, accept]
    · simp [counts]
  · rw [if_neg inside]
    simp only [reduceCtorEq, false_iff]
    rintro ⟨low, high, _⟩
    exact inside ⟨low, high⟩

theorem induce_strip_some (vv : GEMHit F) (shift : Int) (factor : F) (p p' : DigitizedPlane F) (j : Nat)
    (c : Contribution F) (time charge : F) (added : c = inducedContribution vv shift factor j)
    (at_time : time = earlier (p.fTime (vv.getIdx j).toNat) vv.fTime) (scaled : charge = factor * vv.getCharge j) :
    induceStrip vv shift factor p j = some p' ↔
      0 ≤ vv.getIdx j ∧ vv.getIdx j < p.fNStrips ∧
        if 0 ≤ vv.getIdx j + shift ∧ vv.getIdx j + shift < p.fNStrips then
          (∀ k < p.fNSamples, 0 ≤ vv.getADC j k) ∧ p.Room c time charge ∧ p' = p.accept c time charge
        else p' = p := by
  have strip : (vv.getIdx j + shift).toNat = c.strip := by rw [added, induced_strip]
  have counted : (p.mark c.strip (1 <<< kInducedStrip) time charge).absorb c.strip
      (fun k => Arith.trunc (Arith.ofInt (vv.getADC j k) * factor)) false p.fNSamples = p.absorbed c time charge := by
    simp only [absorbed, added, inducedContribution, Option.isSome_none]
  have none_listed : c.cluster = none ∧ c.weight = none := by simp [added, Contribution.cluster, Contribution.weight, inducedContribution]
  simp only [induceStrip, induce_samples, strip, ← at_time, ← scaled]
  by_cases inside : 0 ≤ vv.getIdx j ∧ vv.getIdx j < p.fNStrips
  · rw [if_pos inside]
    by_cases readout : 0 ≤ vv.getIdx j + shift ∧ vv.getIdx j + shift < p.fNStrips
    · have within : ¬ (vv.getIdx j + shift < 0 ∨ (p.fNStrips : Int) ≤ vv.getIdx j + shift) := by omega
      rw [if_neg within, if_pos readout]
      by_cases counts : ∀ k < p.fNSamples, 0 ≤ vv.getADC j k
      · rw [if_pos counts, Option.bind_some, counted, record_over_thr_some p _ p' c time charge rfl]
        have all := eq_true counts
        simp [accept, none_listed, inside, all]
      · simp [counts]
    · have outside : vv.getIdx j + shift < 0 ∨ (p.fNStrips : Int) ≤ vv.getIdx j + shift := by omega
      rw [if_pos outside, if_neg readout]
      simp [inside, eq_comm]
  · rw [if_neg inside]
    simp only [reduceCtorEq, false_iff]
    rintro ⟨low, high, _⟩
    exact inside ⟨low, high⟩

-- The two loops of a call that no assert stopped: what holds before the first
-- strip and lasts over each accepted contribution holds at the end.
theorem cumulate_direct_rule (vv : GEMHit F) (type : Nat) (clusterID : Int) (inv : List Nat → DigitizedPlane F → Prop)
    (each : ∀ done j q, inv done q → 0 ≤ vv.getIdx (j : Nat) → vv.getIdx j < q.fNStrips → (∀ k < q.fNSamples, 0 ≤ vv.getADC j k) →
      inv (done ++ [j]) (q.accept (directContribution vv type clusterID q.fNSamples j)
        (earlier (q.fTime (vv.getIdx j).toNat) vv.fTime) (vv.getCharge j)))
    (p p' : DigitizedPlane F) (completed : p.cumulateDirect vv type clusterID = some p') (initial : inv [] p) :
    inv (List.range vv.fSize.toNat) p' := by
  have loop := run_invariant (fun q j q' => cumulateStrip vv type clusterID q j = some q') inv ?_ [] (List.range vv.fSize.toNat) p p'
    ((foldlM_run _ _ _ _).mp completed) initial
  · simpa only [List.nil_append] using loop
  · intro done j q q' before pass
    obtain ⟨low, high, counts, _, result⟩ := (cumulate_strip_some vv type clusterID q q' j _ _ _ rfl rfl rfl).mp pass
    rw [result, direct_strip]
    exact each done j q before low high counts

theorem cumulate_induced_rule (vv : GEMHit F) (shift : Int) (factor : F) (inv : List Nat → DigitizedPlane F → Prop)
    (reached : ∀ done j q, inv done q → 0 ≤ vv.getIdx (j : Nat) + shift → vv.getIdx j + shift < q.fNStrips →
      inv (done ++ [j]) (q.accept (inducedContribution vv shift factor j) (earlier (q.fTime (vv.getIdx j).toNat) vv.fTime)
        (factor * vv.getCharge j)))
    (outside : ∀ done j q, inv done q → ¬ (0 ≤ vv.getIdx (j : Nat) + shift ∧ vv.getIdx j + shift < q.fNStrips) → inv (done ++ [j]) q)
    (p p' : DigitizedPlane F) (completed : p.cumulateInduced vv (some (shift, factor)) = some p') (initial : inv [] p) :
    inv (List.range vv.fSize.toNat) p' := by
  have loop := run_invariant (fun q j q' => induceStrip vv shift factor q j = some q') inv ?_ [] (List.range vv.fSize.toNat) p p'
    ((foldlM_run _ _ _ _).mp completed) initial
  · simpa only [List.nil_append] using loop
  · intro done j q q' before pass
    have step := (induce_strip_some vv shift factor q q' j _ _ _ rfl rfl rfl).mp pass
    by_cases readout : 0 ≤ vv.getIdx j + shift ∧ vv.getIdx j + shift < q.fNStrips
    · rw [if_pos readout] at step
      rw [step.2.2.2.2]
      exact reached done j q before readout.1 readout.2
    · rw [if_neg readout] at step
      rw [step.2.2]
      exact outside done j q before readout

-- A call that did not stop in an assert ran both loops, with one draw of the
-- cross talk between them.
theorem cumulate_ok {rng : Rng F} (ct : CrossTalk F) (g : Gen) (p p' : DigitizedPlane F) (vv : GEMHit F) (type : Nat)
    (clusterID : Int) (st st' : rng.State) (completed : p.cumulate ct g vv type clusterID st = .ok (p', st')) :
    ∃ direct induced, p.cumulateDirect vv type clusterID = some direct ∧ drawCrossTalk ct g st = .ok (induced, st') ∧
      direct.cumulateInduced vv induced = some p' := by
  obtain ⟨direct, _, first, later⟩ := (draw_bind_ok _ _ _ _ _).mp completed
  obtain ⟨passed, rfl⟩ := (draw_lift_ok _ _ _ _).mp first
  obtain ⟨induced, _, draws, last⟩ := (draw_bind_ok _ _ _ _ _).mp later
  obtain ⟨passed', rfl⟩ := (draw_lift_ok _ _ _ _).mp last
  exact ⟨direct, induced, (check_ok _ _ _).mp passed, draws, (check_ok _ _ _).mp passed'⟩

theorem cumulate_keeps {rng : Rng F} (P : DigitizedPlane F → Prop) (accept : ∀ q c time charge, P q → P (q.accept c time charge))
    (ct : CrossTalk F) (g : Gen) (p p' : DigitizedPlane F) (vv : GEMHit F) (type : Nat) (clusterID : Int) (st st' : rng.State)
    (completed : p.cumulate ct g vv type clusterID st = .ok (p', st')) (holds : P p) : P p' := by
  obtain ⟨direct, induced, first, _, second⟩ := cumulate_ok ct g p p' vv type clusterID st st' completed
  have kept : P direct := cumulate_direct_rule vv type clusterID (fun _ q => P q) (fun _ _ q before _ _ _ => accept q _ _ _ before)
    p direct first holds
  cases induced with
  | none =>
      cases second
      exact kept
  | some pair =>
      exact cumulate_induced_rule vv pair.1 pair.2 (fun _ q => P q) (fun _ _ q before _ _ => accept q _ _ _ before)
        (fun _ _ _ before _ => before) direct p' second kept

end DigitizedPlane

end Solgem
