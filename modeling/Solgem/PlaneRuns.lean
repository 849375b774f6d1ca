import Solgem.PlaneInvariant

set_option autoImplicit false

namespace Solgem

open Lib

variable {F : Type} [Arith F] {rng : Rng F}

-- The hits Cumulate accepts: every listed strip exists and no count is negative.
def GEMHit.Fits (vv : GEMHit F) (nstrip nsample : Nat) : Prop :=
  ∀ j < vv.fSize.toNat, 0 ≤ vv.getIdx j ∧ vv.getIdx j < nstrip ∧ ∀ k < nsample, 0 ≤ vv.getADC j k

namespace DigitizedPlane

structure SameShape (p p' : DigitizedPlane F) : Prop where
  samples : p'.fNSamples = p.fNSamples
  strips : p'.fNStrips = p.fNStrips
  level : p'.fThreshold = p.fThreshold

omit [Arith F] in
theorem same_shape_trans (p p' p'' : DigitizedPlane F) (first : SameShape p p') (second : SameShape p' p'') : SameShape p p'' :=
  ⟨second.samples.trans first.samples, second.strips.trans first.strips, second.level.trans first.level⟩

theorem same_shape_accept (p q : DigitizedPlane F) (c : Contribution F) (time charge : F) (shape : SameShape p q) :
    SameShape p (q.accept c time charge) :=
  ⟨by simp [shape.samples], by simp [shape.strips], by simp [shape.level]⟩

-- What one call of Cumulate writes into the ledger.
def directLedger (vv : GEMHit F) (type : Nat) (clusterID : Int) (nsample : Nat) : List (Contribution F) :=
  (List.range vv.fSize.toNat).map (directContribution vv type clusterID nsample)

def inReadout (nstrip : Nat) (vv : GEMHit F) (shift : Int) (j : Nat) : Bool :=
  decide (0 ≤ vv.getIdx j + shift ∧ vv.getIdx j + shift < nstrip)

def inducedLedger (nstrip : Nat) (vv : GEMHit F) : Option (Int × F) → List (Contribution F)
  | none => []
  | some (shift, factor) =>
      ((List.range vv.fSize.toNat).filter (inReadout nstrip vv shift)).map (inducedContribution vv shift factor)

theorem cumulate_strip_total (p q : DigitizedPlane F) (ledger : List (Contribution F)) (shape : SameShape p q)
    (represents : Represents q ledger) (wide : p.fNStrips ≤ 65535) (vv : GEMHit F) (type : Nat) (clusterID : Int)
    (fits : vv.Fits p.fNStrips p.fNSamples) (j : Nat) (listed : j < vv.fSize.toNat) :
    ∃ q', cumulateStrip vv type clusterID q j = some q' ∧ SameShape p q' ∧
      Represents q' (ledger ++ [directContribution vv type clusterID p.fNSamples j]) := by
  obtain ⟨low, high, counts⟩ := fits j listed
  rw [← shape.strips] at high wide
  rw [← shape.samples] at counts ⊢
  have within : (directContribution vv type clusterID q.fNSamples j).strip < q.fNStrips := by
    rw [direct_strip]
    omega
  refine ⟨_, (cumulate_strip_some vv type clusterID q _ j _ _ _ rfl rfl rfl).mpr ⟨low, high, counts, ?_, rfl⟩, ?_, ?_⟩
  · exact represents_room q ledger represents wide _ _ _ within
  · exact same_shape_accept p q _ _ _ shape
  · have nonneg : ∀ k < q.fNSamples, 0 ≤ (directContribution vv type clusterID q.fNSamples j).samples k := by
      simpa only [direct_samples] using counts
    exact represents_accept q ledger represents _ _ _ ⟨within, nonneg⟩ wide

theorem cumulate_direct_total (p : DigitizedPlane F) (ledger : List (Contribution F)) (represents : Represents p ledger)
    (wide : p.fNStrips ≤ 65535) (vv : GEMHit F) (type : Nat) (clusterID : Int) (fits : vv.Fits p.fNStrips p.fNSamples) :
    ∃ p', p.cumulateDirect vv type clusterID = some p' ∧ SameShape p p' ∧
      Represents p' (ledger ++ directLedger vv type clusterID p.fNSamples) := by
  have loop := run_total (fun q j q' => cumulateStrip vv type clusterID q j = some q')
    (fun done q => SameShape p q ∧ Represents q (ledger ++ done.map (directContribution vv type clusterID p.fNSamples)))
    [] (List.range vv.fSize.toNat) ?_ p ⟨⟨rfl, rfl, rfl⟩, by simpa using represents⟩
  · obtain ⟨p', run, shape, kept⟩ := loop
    exact ⟨p', (foldlM_run _ _ _ _).mpr run, shape, kept⟩
  · rintro done j q member ⟨shape, kept⟩
    obtain ⟨q', pass, shape', kept'⟩ := cumulate_strip_total p q _ shape kept wide vv type clusterID fits j (List.mem_range.mp member)
    exact ⟨q', pass, shape', by simpa only [List.map_append, List.append_assoc, List.map_cons, List.map_nil] using kept'⟩

-- A pass that did not stop in an assert was given a strip and counts that fit.
theorem cumulate_direct_fits (p p' : DigitizedPlane F) (vv : GEMHit F) (type : Nat) (clusterID : Int)
    (completed : p.cumulateDirect vv type clusterID = some p') : vv.Fits p.fNStrips p.fNSamples := by
  have loop := cumulate_direct_rule vv type clusterID
    (fun done q => SameShape p q ∧
      ∀ j ∈ done, 0 ≤ vv.getIdx (j : Nat) ∧ vv.getIdx j < p.fNStrips ∧ ∀ k < p.fNSamples, 0 ≤ vv.getADC j k)
    ?_ p p' completed ⟨⟨rfl, rfl, rfl⟩, by simp⟩
  · exact fun j listed => loop.2 j (List.mem_range.mpr listed)
  · rintro done j q ⟨shape, checked⟩ low high counts
    rw [shape.strips] at high
    rw [shape.samples] at counts
    refine ⟨same_shape_accept p q _ _ _ shape, ?_⟩
    intro i member
    cases List.mem_append.mp member with
    | inl old => exact checked i old
    | inr last =>
        rw [List.mem_singleton.mp last]
        exact ⟨low, high, counts⟩

theorem cumulate_induced_total (p : DigitizedPlane F) (ledger : List (Contribution F)) (represents : Represents p ledger)
    (wide : p.fNStrips ≤ 65535) (vv : GEMHit F) (fits : vv.Fits p.fNStrips p.fNSamples) (induced : Option (Int × F))
    (positive : ∀ pair ∈ induced, ¬ pair.2 ≤ 0.0) :
    ∃ p', p.cumulateInduced vv induced = some p' ∧ SameShape p p' ∧
      Represents p' (ledger ++ inducedLedger p.fNStrips vv induced) := by
  cases induced with
  | none => exact ⟨p, rfl, ⟨rfl, rfl, rfl⟩, by simpa [inducedLedger] using represents⟩
  | some pair =>
      obtain ⟨shift, factor⟩ := pair
      have factorPos := positive (shift, factor) rfl
      have loop := run_total (fun q j q' => induceStrip vv shift factor q j = some q')
        (fun done q => SameShape p q ∧
          Represents q (ledger ++ (done.filter (inReadout p.fNStrips vv shift)).map (inducedContribution vv shift factor)))
        [] (List.range vv.fSize.toNat) ?_ p ⟨⟨rfl, rfl, rfl⟩, by simpa using represents⟩
      · obtain ⟨p', run, shape, kept⟩ := loop
        exact ⟨p', (foldlM_run _ _ _ _).mpr run, shape, kept⟩
      · rintro done j q member ⟨shape, kept⟩
        obtain ⟨low, high, counts⟩ := fits j (List.mem_range.mp member)
        have pass := fun q' => induce_strip_some vv shift factor q q' j _ _ _ rfl rfl rfl
        rw [← shape.strips] at high
        rw [← shape.samples] at counts
        by_cases readout : 0 ≤ vv.getIdx j + shift ∧ vv.getIdx j + shift < q.fNStrips
        · have within : (inducedContribution vv shift factor j).strip < q.fNStrips := by
            rw [induced_strip]
            omega
          have scaled : ∀ k < q.fNSamples, 0 ≤ (inducedContribution vv shift factor j).samples k :=
            fun k sample => Arith.trunc_mul_nonneg _ _ (counts k sample) factorPos
          let q' := q.accept (inducedContribution vv shift factor j) (earlier (q.fTime (vv.getIdx j).toNat) vv.fTime)
            (factor * vv.getCharge j)
          have kept' : Represents q' _ := represents_accept q _ kept (inducedContribution vv shift factor j) _ _
            ⟨within, scaled⟩ (by rw [shape.strips]; exact wide)
          refine ⟨q', (pass q').mpr ⟨low, high, ?_⟩, same_shape_accept p q _ _ _ shape, ?_⟩
          · rw [if_pos readout]
            exact ⟨counts, represents_room q _ kept (by rw [shape.strips]; exact wide) _ _ _ within, rfl⟩
          · have inside : inReadout p.fNStrips vv shift j = true := by
              rw [← shape.strips]
              exact decide_eq_true readout
            simpa [List.filter_append, inside] using kept'
        · refine ⟨q, (pass q).mpr ⟨low, high, by rw [if_neg readout]⟩, shape, ?_⟩
          have outside : inReadout p.fNStrips vv shift j = false := by
            rw [← shape.strips]
            exact decide_eq_false readout
          simpa [List.filter_append, outside] using kept

theorem draw_cross_talk_eq (rng : Rng F) (ct : CrossTalk F) (g : Gen) (requested : ct.fDoCrossTalk = true) (st : rng.State) :
    drawCrossTalk ct g st =
      let (u, mid) := rng.uniform g 0.0 1.0 st
      let (spread, st') := rng.gaus g 0.0 ct.fCrossSigma mid
      .ok (if ct.fCrossFactor + spread ≤ 0.0 then none
        else some ((if u < 0.5 then -1 else 1) * ct.fNCStripApart, ct.fCrossFactor + spread), st') := by
  rcases uniform : rng.uniform g 0.0 1.0 st with ⟨u, mid⟩
  rcases gaus : rng.gaus g 0.0 ct.fCrossSigma mid with ⟨spread, st'⟩
  rw [drawCrossTalk, if_pos requested, draw_bind_of _ _ u st mid (congrArg Except.ok uniform),
    draw_bind_of _ _ spread mid st' (congrArg Except.ok gaus)]
  simp only [gaus]
  split <;> rfl

theorem draw_cross_talk_total (rng : Rng F) (ct : CrossTalk F) (g : Gen) (st : rng.State) :
    ∃ induced st', drawCrossTalk ct g st = .ok (induced, st') ∧ (∀ pair ∈ induced, ¬ pair.2 ≤ 0.0) ∧
      (ct.fDoCrossTalk = false → induced = none) := by
  by_cases requested : ct.fDoCrossTalk = true
  · refine ⟨_, _, draw_cross_talk_eq rng ct g requested st, ?_, ?_⟩
    · intro pair member
      split at member
      · cases member
      · rename_i kept
        rw [← Option.some.inj member]
        exact kept
    · intro off
      rw [off] at requested
      exact absurd requested (by decide)
  · refine ⟨none, st, ?_, by simp, fun _ => rfl⟩
    rw [drawCrossTalk, if_neg requested]
    rfl

theorem cumulate_total (ct : CrossTalk F) (g : Gen) (p : DigitizedPlane F) (ledger : List (Contribution F))
    (represents : Represents p ledger) (wide : p.fNStrips ≤ 65535) (vv : GEMHit F) (type : Nat) (clusterID : Int)
    (fits : vv.Fits p.fNStrips p.fNSamples) (st st' : rng.State) (induced : Option (Int × F))
    (draws : drawCrossTalk ct g st = .ok (induced, st')) :
    ∃ p', p.cumulate ct g vv type clusterID st = .ok (p', st') ∧ SameShape p p' ∧
      Represents p' (ledger ++ (directLedger vv type clusterID p.fNSamples ++ inducedLedger p.fNStrips vv induced)) := by
  obtain ⟨direct, first, shape, kept⟩ := cumulate_direct_total p ledger represents wide vv type clusterID fits
  have positive : ∀ pair ∈ induced, ¬ pair.2 ≤ 0.0 := by
    obtain ⟨induced', st'', draws', positive, _⟩ := draw_cross_talk_total rng ct g st
    rw [draws] at draws'
    cases draws'
    exact positive
  obtain ⟨p', second, shape', kept'⟩ := cumulate_induced_total direct _ kept (by rw [shape.strips]; exact wide) vv
    (by rw [shape.strips, shape.samples]; exact fits) induced positive
  refine ⟨p', ?_, same_shape_trans _ _ _ shape shape', ?_⟩
  · rw [cumulate, draw_bind_of _ _ direct st st (draw_checked _ _ direct st first), draw_bind_of _ _ induced st st' draws]
    exact draw_checked _ _ p' st' second
  · rw [← shape.strips, ← List.append_assoc]
    exact kept'

end DigitizedPlane

end Solgem
