import Solgem.Digitization
import Solgem.Lib.Listing
import Solgem.Lib.Outcome

set_option autoImplicit false

namespace Solgem

open Lib

variable {F : Type} [Arith F]

-- A strip record that shows a plane as it is: every sample is the count of
-- the plane with the noise of one Gaussian draw, capped.
structure Readout (rng : Rng F) (su : Setup F) (fDP : Nat → Fin 2 → DigitizedPlane F) (strip : Nat × Fin 2 × Nat)
    (record : DigiGEMStrip F) : Prop where
  sector : record.fSector = 0
  plane : record.fPlane = toInt16 (su.manager.getPlaneID strip.1)
  module : record.fModule = toInt16 (su.manager.getModuleID strip.1)
  proj : record.fProj = strip.2.1.val
  chan : record.fChan = strip.2.2
  type : record.fSigType = (fDP strip.1 strip.2.1).fType strip.2.2
  charge : record.fCharge = (fDP strip.1 strip.2.1).fCharge strip.2.2
  time : record.fTime1 = (fDP strip.1 strip.2.1).fTime strip.2.2
  nsamp : record.fNsamp = min Digitizer.MC_MAXSAMP (fDP strip.1 strip.2.1).fNSamples
  adc : List.Forall₂ (fun k a => ∃ st, a = Digitizer.readoutADC ((fDP strip.1 strip.2.1).getADC strip.2.2 k)
    (rng.gaus .trnd 0.0 su.par.fPulseNoiseSigma st).1) (List.range record.fNsamp) record.fADC
  clusters : record.fClusters = (fDP strip.1 strip.2.1).fStripClusters strip.2.2
  ratio : record.fClusterRatio =
    (List.range record.fNsamp).map (fun k => (fDP strip.1 strip.2.1).fStripClusterADC k strip.2.2)
  weights : record.fStripWeightInCluster = (fDP strip.1 strip.2.1).fStripWeightInCluster strip.2.2

-- The strip list is the image of the planes: one record for every strip.
def Shows (rng : Rng F) (su : Setup F) (fDP : Nat → Fin 2 → DigitizedPlane F) (records : List (DigiGEMStrip F)) : Prop :=
  List.Forall₂ (Readout rng su fDP) (Digitizer.strips su fDP) records

namespace Digitizer

omit [Arith F] in
theorem mem_strips (su : Setup F) (fDP : Nat → Fin 2 → DigitizedPlane F) (strip : Nat × Fin 2 × Nat) :
    strip ∈ strips su fDP ↔ strip.1 < su.fNChambers ∧ strip.2.2 < (fDP strip.1 strip.2.1).fNStrips := by
  obtain ⟨ich, ip, istrip⟩ := strip
  simp only [strips, List.mem_flatMap, List.mem_range, List.mem_finRange, true_and, List.mem_map, Prod.mk.injEq]
  constructor
  · rintro ⟨_, chamber, _, _, below, rfl, rfl, rfl⟩
    exact ⟨chamber, below⟩
  · rintro ⟨chamber, below⟩
    exact ⟨ich, chamber, ip, istrip, below, rfl, rfl, rfl⟩

section
variable {rng : Rng F} {fails : Fault → Prop}

theorem set_tree_strip_readout (su : Setup F) (fDP : Nat → Fin 2 → DigitizedPlane F) (strip : Nat × Fin 2 × Nat)
    (access : 32768 ≤ strip.2.2 → fails .badAccess) (st : rng.State) :
    Ensures fails (fun record _ => Readout rng su fDP strip record) ((setTreeStrip su fDP strip : Draw rng _) st) := by
  obtain ⟨ich, ip, istrip⟩ := strip
  refine ensures_bind (fun idx _ => idx = istrip) _ _ _ st ?_ ?_
  · by_cases small : istrip < 32768
    · rw [if_pos small]
      exact rfl
    · rw [if_neg small]
      exact access (Nat.le_of_not_lt small)
  · rintro idx mid rfl
    refine ensures_bind (fun fADC _ => List.Forall₂ (fun k a => ∃ st, a = readoutADC ((fDP ich ip).getADC idx k)
      (rng.gaus .trnd 0.0 su.par.fPulseNoiseSigma st).1) (List.range (min MC_MAXSAMP (fDP ich ip).fNSamples)) fADC) _ _ _
      mid ?_ ?_
    · refine ensures_mapM _ _ _ (fun ss _ s => ?_) mid
      exact ⟨s, rfl⟩
    · intro fADC st' sampled
      exact ⟨rfl, rfl, rfl, rfl, rfl, rfl, rfl, rfl, rfl, sampled, rfl, rfl, rfl⟩

theorem set_tree_strips_shows (su : Setup F) (d : Digitizer F)
    (access : (∃ strip ∈ strips su d.fDP, 32768 ≤ strip.2.2) → fails .badAccess) (st : rng.State) :
    Ensures fails (fun d' _ => ∃ records, Shows rng su d.fDP records ∧
      d' = { d with fEvent := { d.fEvent with fGEMStrips := records }, fFilledStrips := true })
      ((d.setTreeStrips su : Draw rng _) st) := by
  refine ensures_bind (fun records _ => Shows rng su d.fDP records) _ _ _ st ?_ ?_
  · exact ensures_mapM _ _ _ (fun strip member s =>
      set_tree_strip_readout su d.fDP strip (fun large => access ⟨strip, member, large⟩) s) st
  · intro records st' shows
    exact ⟨records, shows, rfl⟩

theorem set_tree_strips_ok (su : Setup F) (d d' : Digitizer F) (st st' : rng.State)
    (ran : (d.setTreeStrips su : Draw rng _) st = .ok (d', st')) :
    ∃ records, ((strips su d.fDP).mapM (setTreeStrip su d.fDP) : Draw rng _) st = .ok (records, st') ∧
      d' = { d with fEvent := { d.fEvent with fGEMStrips := records }, fFilledStrips := true } := by
  obtain ⟨records, mid, drawn, rest⟩ := (draw_bind_ok _ _ _ _ _).mp ran
  obtain ⟨same, rfl⟩ := (draw_pure_ok _ _ _ _).mp rest
  exact ⟨records, drawn, same⟩

theorem shows_of_read (su : Setup F) (fDP : Nat → Fin 2 → DigitizedPlane F) (records : List (DigiGEMStrip F))
    (st st' : rng.State) (read : ((strips su fDP).mapM (setTreeStrip su fDP) : Draw rng _) st = .ok (records, st')) :
    Shows rng su fDP records := by
  have all : Ensures (fun _ => True) (fun records _ => Shows rng su fDP records)
      (((strips su fDP).mapM (setTreeStrip su fDP) : Draw rng _) st) :=
    ensures_mapM _ _ _ (fun strip _ s => set_tree_strip_readout su fDP strip (fun _ => trivial) s) st
  exact ensures_ok _ records st' _ all read

theorem fill_tree_ensures (su : Setup F) (d : Digitizer F)
    (access : (∃ strip ∈ strips su d.fDP, 32768 ≤ strip.2.2) → fails .badAccess) (st : rng.State)
    (post : Digitizer F → Prop) (kept : d.fFilledStrips = true → post d.writeEvent)
    (filled : d.fFilledStrips = false → ∀ records, Shows rng su d.fDP records →
      post (writeEvent { d with fEvent := { d.fEvent with fGEMStrips := records }, fFilledStrips := true })) :
    Ensures fails (fun d' _ => post d') ((d.fillTree su : Draw rng _) st) := by
  rw [fillTree]
  cases flag : d.fFilledStrips with
  | true => exact kept flag
  | false =>
      refine ensures_bind _ _ _ _ st (set_tree_strips_shows su d access st) ?_
      rintro d' st' ⟨records, shows, rfl⟩
      exact filled flag records shows

theorem fill_tree_total (rng : Rng F) (su : Setup F) (d : Digitizer F)
    (small : ∀ ic < su.fNChambers, ∀ ip, (d.fDP ic ip).fNStrips ≤ 32768) (st : rng.State) :
    ∃ d' st', (d.fillTree su : Draw rng _) st = .ok (d', st') := by
  have access : (∃ strip ∈ strips su d.fDP, 32768 ≤ strip.2.2) → False := by
    rintro ⟨strip, member, large⟩
    obtain ⟨chamber, below⟩ := (mem_strips su d.fDP strip).mp member
    exact absurd (small strip.1 chamber strip.2.1) (by omega)
  obtain ⟨d', st', filled, _⟩ := ensures_total _ _
    (fill_tree_ensures su d access st (fun _ => True) (fun _ => trivial) (fun _ _ _ => trivial))
  exact ⟨d', st', filled⟩

end

end Digitizer

end Solgem
