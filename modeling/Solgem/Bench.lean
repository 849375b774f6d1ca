import Solgem.AvaStrips
import Solgem.DigitizerStep

set_option autoImplicit false

namespace Solgem

open Lib DigitizedPlane Digitizer

-- A chamber with nstrip strips of one millimetre in x and in y, numbered as
-- ReadGeometry does it, for concrete runs.
noncomputable def benchChamber (nstrip : Nat) : GEMChamber ℝ :=
  let box := ⟨0, 0, (nstrip - 1) / 1000, (nstrip - 1) / 1000, fun i j => if i = j then 1 else 0⟩
  let plane := fun angle c s => ⟨angle, nstrip, 1 / 1000, -nstrip / 2000, box, c, s⟩
  ⟨fun ip => if ip = 0 then plane 0 1 0 else plane (Real.pi / 2) 0 (-1), box⟩

-- The ADC offset makes every strip of an avalanche read at least one count.
noncomputable def bench (nstrip steps : Nat) : Setup ℝ where
  par :=
    { fGasWion := 1, fGasDiffusion := 1, fGasDriftVelocity := 1, fAvalancheFiducialBand := 0,
      fAvalancheChargeStatistics := 0, fGainMean := 1, fGain0 := 1, fMaxNIon := 100, fSNormNsigma := 1, fAvaGain := 1,
      fTriggerOffset := [0], fTriggerJitter := 0, fEleSamplingPoints := 1, fEleSamplingPeriod := 25, fADCoffset := -1,
      fADCgain := 1, fADCbits := 12, fGateWidth := 400, fEntranceRef := 0, fLateralUncertainty := 0,
      fPulseNoiseSigma := 0, fPulseShapeTau0 := 50, fPulseShapeTau1 := -1, fRoutZ := 9, fYIntegralStepsPerPitch := 1,
      fXIntegralStepsPerPitch := steps, sampling_points := by decide, adc_bits := by decide }
  ct := ⟨false, 1, 0, 0⟩
  spec := [benchChamber nstrip]
  manager := (DBManager.loadGeneralInfo ⟨1, 1, [1], 128, 1⟩).getD (DBManager.fresh ⟨1, 1, [1], 128, 1⟩)

-- Members no call has written yet.
noncomputable def unwritten : IonState ℝ := ⟨0, [], 0, 0, 0⟩

-- A primary particle from corner to corner of a chamber with three strips.
noncomputable def crossing : GEMHitData ℝ where
  fGem := 0
  fPlane := 0
  fModule := 0
  fEdep := 1
  fTime := 0
  fType := 1
  fTRID := 1
  fPID := 11
  fXi := ⟨-1, -1, 0⟩
  fXo := ⟨1, 1, 3⟩
  fMom := ⟨0, 0, 1⟩
  fVert := ⟨0, 0, 0⟩

noncomputable def crossingData : SimHitData ℝ := ⟨0, 0, 0, [crossing]⟩

theorem bench_accepts (nstrip steps : Nat) : (bench nstrip steps).accepts crossing = some (benchChamber nstrip) := by
  have short : ¬ ((50.0 : ℝ) < |(-1 : ℝ) - 1| ∨ (50.0 : ℝ) < |(-1 : ℝ) - 1|) := by
    rw [show |(-1 : ℝ) - 1| = 2 by norm_num [abs_of_neg]]
    norm_num
  exact if_neg short

theorem bench_jitter (st : List Int) : (drawGaus .trnd 0.0 (0 : ℝ) : Draw (Rng.scripted ℝ) ℝ) st = .ok (0, st) := by
  rw [show (0.0 : ℝ) = 0 by norm_num]
  rfl

theorem bench_hit_no_ion (nstrip steps fType : Nat) (d : Digitizer ℝ) (idle : d.fdh = none) (st : List Int)
    (none_drawn : st.headD 0 = 0) :
    (Digitizer.digitizeHit (bench nstrip steps) 0 0 d { crossing with fType := fType } : Draw (Rng.scripted ℝ) _) st =
      .ok ({ d with
        ion := { d.ion with fRNIon := 0 }
        fEvent := d.fEvent.recordHit ((bench nstrip steps).treeHit 0 { crossing with fType := fType } (benchChamber nstrip) none
          d.fEvent.fGEMClust.length (Setup.timeZero 0 0 d.ion.fRTime0 0)) }, st.tail) := by
  have accepted : (bench nstrip steps).accepts { crossing with fType := fType } = some (benchChamber nstrip) :=
    bench_accepts nstrip steps
  have timed : ((bench nstrip steps).drawEventTime 0 { crossing with fType := fType } : Draw (Rng.scripted ℝ) ℝ) st.tail =
      .ok (0, st.tail) := rfl
  have no_ion : toUInt32 (st.headD 0) = 0 := by
    rw [none_drawn]
    decide
  rw [Digitizer.digitizeHit, accepted]
  exact Digitizer.digitize_accepted_no_ion (Rng.scripted ℝ) (bench nstrip steps) 0 0 d _ _ idle st st.tail no_ion 0 0 timed rfl

theorem bench_no_ion (nstrip steps : Nat) (d : Digitizer ℝ) (idle : d.fdh = none) (st : List Int) (none_drawn : st.headD 0 = 0) :
    (d.additiveDigitize (bench nstrip steps) crossingData : Draw (Rng.scripted ℝ) _) st =
      .ok ({ d with
        ion := { d.ion with fRNIon := 0 }
        fEvent := d.fEvent.recordHit ((bench nstrip steps).treeHit 0 crossing (benchChamber nstrip) none
          d.fEvent.fGEMClust.length (Setup.timeZero 0 0 d.ion.fRTime0 0))
        fFilledStrips := false }, st.tail) := by
  change ((drawGaus .trnd 0.0 (0 : ℝ) : Draw (Rng.scripted ℝ) ℝ) >>= fun trigger_jitter =>
    ([crossing].foldlM (Digitizer.digitizeHit (bench nstrip steps) 0 trigger_jitter) d) >>= fun looped =>
      pure { looped with fFilledStrips := false }) st = _
  refine (@draw_bind_of ℝ (Rng.scripted ℝ) _ _ _ _ 0 st st (bench_jitter st)).trans ?_
  simp only [List.foldlM_cons, List.foldlM_nil, bind_pure]
  exact @draw_bind_of ℝ (Rng.scripted ℝ) _ _ _ _ _ st _ (bench_hit_no_ion nstrip steps 1 d idle st none_drawn)

theorem bench_strips (nstrip steps : Nat) (small : nstrip < 65536) (ic : Nat) (ip : Fin 2) :
    ((bench nstrip steps).freshPlane ic ip).fNStrips = if ic = 0 then nstrip else 0 := by
  cases ic with
  | succ ic => rfl
  | zero =>
      have width : toUInt16 nstrip = nstrip := by
        have exact := uint16_exact nstrip (by omega) (by omega)
        omega
      rcases projections ip with rfl | rfl
      · exact width
      · exact width

theorem bench_area (steps : Nat) (ion : IonState ℝ) :
    diffusionArea (bench 3 steps).par ion crossing.fXi crossing.fXo = ⟨-1, -1, 1, 1⟩ := by
  have reach : (bench 3 steps).par.fAvalancheFiducialBand * ion.fRSMax = 0 := zero_mul _
  have left : crossing.fXi.x < crossing.fXo.x := by norm_num [crossing]
  have below : crossing.fXi.y < crossing.fXo.y := by norm_num [crossing]
  simp only [diffusionArea, reach, if_pos left, if_pos below]
  simp [crossing]

theorem bench_active : activeRegion (benchChamber 3) ⟨-1, -1, 1, 1⟩ = some ⟨-1, -1, 1, 1⟩ := by
  have zero : toUInt32 0 = 0 := by decide
  have two : toUInt32 2 = 2 := by decide
  simp only [activeRegion, benchChamber, GEMPlane.getStripUpperEdge, GEMPlane.getStripLowerEdge]
  norm_num [zero, two, Arith.ofInt]

theorem bench_strip_range (ip : Fin 2) : stripRange ((benchChamber 3).fPlanes ip) ⟨-1, -1, 1, 1⟩ = some (some (0, 2)) := by
  rcases projections ip with rfl | rfl
  · simp only [stripRange, toStripFrame, benchChamber, GEMPlane.planeToStrip, GEMPlane.getStrip, GEMPlane.stripToPlane,
      Box.contains, GEMPlane.getStripUnchecked]
    norm_num [Arith.abs, Arith.trunc]
  · simp only [stripRange, toStripFrame, benchChamber, GEMPlane.planeToStrip, GEMPlane.getStrip, GEMPlane.stripToPlane,
      Box.contains, GEMPlane.getStripUnchecked]
    norm_num [Arith.abs, Arith.trunc]

theorem bench_bins (steps : Nat) (small : 3 * steps ≤ 2147483647) (ip : Fin 2) :
    (grid (bench 3 steps).par ((benchChamber 3).fPlanes ip) ⟨-1, -1, 1, 1⟩ 0 2).nx = 3 * steps ∧
      (grid (bench 3 steps).par ((benchChamber 3).fPlanes ip) ⟨-1, -1, 1, 1⟩ 0 2).ny = 2 := by
  have columns : toInt32 ((2 - 0 + 1) * ((bench 3 steps).par.fXIntegralStepsPerPitch : Int)) = 3 * steps := by
    rw [show (bench 3 steps).par.fXIntegralStepsPerPitch = steps from rfl, show ((2 - 0 + 1) * steps : Int) = 3 * steps by ring]
    exact int32_exact _ (by omega) (by omega)
  refine ⟨by rw [grid, columns], ?_⟩
  rcases projections ip with rfl | rfl
  · simp only [grid, toStripFrame, bench, benchChamber, GEMPlane.planeToStrip]
    norm_num [Arith.floor, Arith.ceil, Arith.ofInt, nint, Arith.trunc]
  · simp only [grid, toStripFrame, bench, benchChamber, GEMPlane.planeToStrip]
    norm_num [Arith.floor, Arith.ceil, Arith.ofInt, nint, Arith.trunc]

theorem bench_reading (val : ℝ) : 0 < adcConvert val (-1) 1 12 := by
  have saturation : Arith.ofInt (2 ^ 12 - 1) = (4095 : ℝ) := by norm_num [Arith.ofInt]
  have reading : ∀ x : ℝ, 1 ≤ x → x ≤ 4095 → 0 < toInt16 (Arith.trunc (Arith.floor x)) := by
    intro x low high
    have floorLow : 1 ≤ ⌊x⌋ := Int.le_floor.mpr (by simpa using low)
    have floorHigh : ⌊x⌋ ≤ 4095 := by
      have below : (⌊x⌋ : ℝ) ≤ 4095 := (Int.floor_le x).trans high
      exact_mod_cast below
    have whole : Arith.trunc (Arith.floor x) = ⌊x⌋ := Arith.trunc_ofInt ⌊x⌋ (by omega) (by omega)
    rw [whole, int16_exact _ (by omega) (by omega)]
    omega
  have pedestal : (1 : ℝ) ≤ ((if val < 0.0 then 0.0 else val) - -1) / 1 := by
    split
    · norm_num
    · rename_i nonneg
      norm_num at nonneg ⊢
      exact nonneg
  simp only [adcConvert, saturation]
  generalize ((if val < 0.0 then (0.0 : ℝ) else val) - -1) / 1 = x at pedestal ⊢
  by_cases over_range : 4095 < x
  · have counted := reading 4095 (by norm_num) (le_refl _)
    rw [if_pos over_range, if_neg (lt_irrefl _), if_neg (by omega)]
    exact counted
  · have counted := reading x pedestal (not_lt.mp over_range)
    rw [if_neg over_range, if_neg over_range, if_neg (by omega)]
    exact counted

theorem store_all (par : Params ℝ) (t0 : ℝ) (charge : Nat → ℝ) (iL : Int) (vv : GEMHit ℝ) (n : Nat)
    (signal : ∀ us, 0 < ((List.range par.fEleSamplingPoints).map (sampleADC par t0 us)).sum) :
    ((List.range n).foldl (storeStrip par t0 charge iL) (vv, 0)).2 = n ∧
      (vv.fIdx = [] → ((List.range n).foldl (storeStrip par t0 charge iL) (vv, 0)).1.fIdx = []) := by
  have loop := foldl_invariant (storeStrip par t0 charge iL) (fun done acc => acc.2 = done.length ∧
    (vv.fIdx = [] → acc.1.fIdx = [])) [] (List.range n) ?_ (vv, 0) ⟨rfl, fun none => none⟩
  · simpa only [List.nil_append, List.length_range] using loop
  · rintro done j acc _ ⟨count, empty⟩
    simp only [storeStrip, if_pos (signal (charge j))]
    refine ⟨by rw [List.length_append, List.length_singleton, count], fun none => ?_⟩
    have sampled := foldl_invariant (fun (vv : GEMHit ℝ) (b : Nat) => vv.addSampleAt (sampleADC par t0 (charge j) b) b acc.2)
      (fun _ acc => acc.fIdx = []) [] (List.range par.fEleSamplingPoints)
      (fun _ b acc' _ idx => (GEMHit.add_sample_at_idx acc' acc.2 _ b).trans idx) acc.1 (empty none)
    rw [GEMHit.add_charge_at_idx, GEMHit.add_strip_at_idx, sampled, addAt]
    split <;> rfl

theorem bench_plane (steps : Nat) (positive : 0 < steps) (small : 3 * steps ≤ 2147483647) (ion : IonState ℝ) (t0 : ℝ)
    (ip : Fin 2) :
    ∃ vv, avaPlane (bench 3 steps).par ion ((benchChamber 3).fPlanes ip) ⟨-1, -1, 1, 1⟩ t0 = .ok (some vv) ∧ vv.fSize = 3 ∧
      (toInt16 (3 * steps) ≤ 0 → vv.fIdx = []) := by
  obtain ⟨columns, rows⟩ := bench_bins steps small ip
  have signal : ∀ us, 0 < ((List.range (bench 3 steps).par.fEleSamplingPoints).map (sampleADC (bench 3 steps).par t0 us)).sum := by
    intro us
    have reading : 0 < sampleADC (bench 3 steps).par t0 us 0 := by
      rw [sampleADC]
      exact bench_reading _
    rw [show (bench 3 steps).par.fEleSamplingPoints = 1 from rfl, List.range_one, List.map_singleton, List.sum_singleton]
    exact reading
  have built := ava_plane_region (bench 3 steps).par ion ((benchChamber 3).fPlanes ip) ⟨-1, -1, 1, 1⟩ t0 0 2
    (bench_strip_range ip)
  rw [if_pos (by rw [columns, rows]; omega)] at built
  have stored := store_all (bench 3 steps).par t0
    (stripCharge (bench 3 steps).par (grid (bench 3 steps).par ((benchChamber 3).fPlanes ip) ⟨-1, -1, 1, 1⟩ 0 2)
      (fillBins (bench 3 steps).par ((benchChamber 3).fPlanes ip)
        (grid (bench 3 steps).par ((benchChamber 3).fPlanes ip) ⟨-1, -1, 1, 1⟩ 0 2) ion)) 0
    (((GEMHit.new (grid (bench 3 steps).par ((benchChamber 3).fPlanes ip) ⟨-1, -1, 1, 1⟩ 0 2).nx
      (bench 3 steps).par.fEleSamplingPoints).setTime t0).setHitCharge ion.fRTotalCharge) 3 signal
  refine ⟨_, built, ?_, fun narrow => ?_⟩
  · rw [GEMHit.set_size_size]
    exact (congrArg (fun n : Nat => toInt16 n) stored.1).trans (by decide)
  · rw [GEMHit.set_size_idx]
    refine stored.2 ?_
    rw [columns, GEMHit.setHitCharge, GEMHit.setTime, GEMHit.new]
    dsimp only
    rw [arrayNew, Int.toNat_of_nonpos narrow, List.replicate_zero]

theorem bench_avalanche (steps : Nat) (positive : 0 < steps) (small : 3 * steps ≤ 2147483647) (ion : IonState ℝ) (t0 : ℝ) :
    ∃ vv, avaModel (bench 3 steps).par ion (benchChamber 3) crossing.fXi crossing.fXo t0 = .ok (some vv) ∧
      ∀ ip, (vv ip).fSize = 3 ∧ (toInt16 (3 * steps) ≤ 0 → (vv ip).fIdx = []) := by
  obtain ⟨u, builtU, sizeU⟩ := bench_plane steps positive small ion t0 0
  obtain ⟨v, builtV, sizeV⟩ := bench_plane steps positive small ion t0 1
  refine ⟨fun ip => if ip = 0 then u else v, ?_, fun ip => ?_⟩
  · rw [avaModel, bench_area, bench_active]
    simp only [bind, Except.bind, builtU, builtV]
    rfl
  · rcases projections ip with rfl | rfl
    · exact sizeU
    · exact sizeV

theorem bench_ions (steps : Nat) (ion : IonState ℝ) :
    ∃ ion', (ionModel (bench 3 steps).par crossing.fXi crossing.fXo crossing.fEdep ion : Draw (Rng.scripted ℝ) _) [1] =
      .ok (ion', []) ∧ 0 < ion'.fRNIon :=
  ⟨_, rfl, Nat.zero_lt_one⟩

-- What one avalanche of the crossing particle leaves on clear planes.
structure BenchHit (steps : Nat) (vv : Fin 2 → GEMHit ℝ) (d : Digitizer ℝ) : Prop where
  flag : d.fFilledStrips = false
  idle : d.fdh = none
  cluster : ∃ t0, d.fEvent.fGEMClust = [(bench 3 steps).treeHit 0 crossing (benchChamber 3) (some vv) 0 t0]
  plane : ∀ ip, SameShape ((bench 3 steps).freshPlane 0 ip) (d.fDP 0 ip) ∧
    Represents (d.fDP 0 ip) (directLedger (vv ip) 1 1 1)
  size : ∀ ip, (vv ip).fSize = 3
  fits : ∀ ip, (vv ip).Fits 3 1
  arrays : toInt16 (3 * steps) ≤ 0 → ∀ ip, (vv ip).fIdx = []

theorem bench_one_ion (steps : Nat) (positive : 0 < steps) (small : 3 * steps ≤ 2147483647) (ion : IonState ℝ)
    (fOTree : Option (List (SimEvent ℝ))) :
    ∃ vv d, ((Digitizer.new (bench 3 steps) ion fOTree).digitize (bench 3 steps) crossingData : Draw (Rng.scripted ℝ) _) [1] =
      .ok (d, []) ∧ BenchHit steps vv d := by
  let start := (Digitizer.new (bench 3 steps) ion fOTree).clearAll
  obtain ⟨drawn, ions, some_ion⟩ := bench_ions steps start.ion
  obtain ⟨vv, built, filled⟩ := bench_avalanche steps positive small drawn (Setup.timeZero 0 0 drawn.fRTime0 0)
  obtain ⟨region, _, planes⟩ := ava_model_some _ _ _ _ _ _ _ built
  have fits : ∀ ip, (vv ip).Fits 3 1 := by
    intro ip
    obtain ⟨_, within, _⟩ := ava_plane_some _ _ _ _ _ _ (by rcases projections ip with rfl | rfl <;> decide) (planes ip)
    exact GEMHit.fits_of_within 3 1 (by decide) (vv ip) (by rcases projections ip with rfl | rfl <;> exact within)
  have plane : ∀ ip, ∃ p, ((start.fDP 0 ip).cumulate (bench 3 steps).ct (.ran 0 ip) (vv ip) 1 1 : Draw (Rng.scripted ℝ) _) [] =
      .ok (p, []) ∧ SameShape ((bench 3 steps).freshPlane 0 ip) p ∧ Represents p (directLedger (vv ip) 1 1 1) := by
    intro ip
    have strips : (start.fDP 0 ip).fNStrips = 3 := bench_strips 3 steps (by decide) 0 ip
    obtain ⟨p, cumulated, shape, kept⟩ := @cumulate_total ℝ _ (Rng.scripted ℝ) (bench 3 steps).ct (.ran 0 ip) (start.fDP 0 ip) []
      (represents_clear _ (Int.le_refl 0)) (by rw [strips]; decide) (vv ip) 1 1 (by rw [strips]; exact fits ip) [] [] none rfl
    have samples : (start.fDP 0 ip).fNSamples = 1 := show toUInt16 1 = 1 by decide
    rw [samples] at kept
    exact ⟨p, cumulated, shape, by simpa [inducedLedger] using kept⟩
  obtain ⟨first, cumulatedFirst, shapeFirst, keptFirst⟩ := plane 0
  obtain ⟨second, cumulatedSecond, shapeSecond, keptSecond⟩ := plane 1
  let hit := (bench 3 steps).treeHit 0 crossing (benchChamber 3) (some vv) 0 (Setup.timeZero 0 0 drawn.fRTime0 0)
  let struck : Digitizer ℝ := { start with ion := drawn, fdh := some vv, fEvent := start.fEvent.recordHit hit }
  let looped := { (struck.updatePlane 0 0 first).updatePlane 0 1 second with fdh := none }
  have cumulated : (struck.cumulateHit (bench 3 steps) crossing 1 : Draw (Rng.scripted ℝ) _) [] = .ok (looped, []) :=
    (@draw_bind_of ℝ (Rng.scripted ℝ) _ _ _ _ first [] [] cumulatedFirst).trans
      (@draw_bind_of ℝ (Rng.scripted ℝ) _ _ _ _ second [] [] cumulatedSecond)
  have accepted : (start.digitizeAccepted (bench 3 steps) 0 0 crossing (benchChamber 3) : Draw (Rng.scripted ℝ) _) [1] =
      .ok (looped, []) := by
    refine (@draw_bind_of ℝ (Rng.scripted ℝ) _ _ _ _ drawn [1] [] ions).trans ?_
    refine (@draw_bind_of ℝ (Rng.scripted ℝ) _ _ _ _ 0 [] [] rfl).trans ?_
    refine (@draw_bind_of ℝ (Rng.scripted ℝ) _ _ _ _ 0 [] [] rfl).trans ?_
    refine (@draw_bind_of ℝ (Rng.scripted ℝ) _ _ _ _ (some vv) [] [] ?_).trans ?_
    · rw [avalanche, if_pos some_ion, built]
      rfl
    · have first_id : toInt16 (start.fEvent.fGEMClust.length + 1) = 1 := by
        rw [show start.fEvent.fGEMClust.length = 0 from rfl]
        decide
      rw [set_tree_hit_state, set_tree_hit_id, first_id]
      exact cumulated
  have loop : ([crossing].foldlM (Digitizer.digitizeHit (bench 3 steps) 0 0) start : Draw (Rng.scripted ℝ) _) [1] =
      .ok (looped, []) := by
    simp only [List.foldlM_cons, List.foldlM_nil, bind_pure]
    rw [Digitizer.digitizeHit, bench_accepts]
    exact accepted
  refine ⟨vv, { looped with fFilledStrips := false }, ?_, rfl, rfl, ⟨_, rfl⟩, ?_, ?_, fits, ?_⟩
  · exact (@draw_bind_of ℝ (Rng.scripted ℝ) _ _ _ _ 0 [1] [1] (bench_jitter [1])).trans
      (@draw_bind_of ℝ (Rng.scripted ℝ) _ _ _ _ looped [1] [] loop)
  · intro ip
    rcases projections ip with rfl | rfl
    · exact ⟨shapeFirst, keptFirst⟩
    · exact ⟨shapeSecond, keptSecond⟩
  · exact fun ip => (filled ip).1
  · exact fun narrow ip => (filled ip).2 narrow

theorem bench_hit_strips (steps : Nat) (vv : Fin 2 → GEMHit ℝ) (d : Digitizer ℝ) (struck : BenchHit steps vv d) (ip : Fin 2) :
    (d.fDP 0 ip).fNStrips = 3 :=
  (struck.plane ip).1.strips.trans (bench_strips 3 steps (by decide) 0 ip)

theorem bench_hit_listed (steps : Nat) (vv : Fin 2 → GEMHit ℝ) (d : Digitizer ℝ) (struck : BenchHit steps vv d) (ip : Fin 2)
    (j : Nat) (below : j < 3) :
    ((vv ip).getIdx j).toNat < 3 ∧ 1 ∈ (d.fDP 0 ip).fStripClusters ((vv ip).getIdx j).toNat := by
  have listed : j < (vv ip).fSize.toNat := by
    rw [struck.size ip]
    exact below
  obtain ⟨low, high, _⟩ := struck.fits ip j listed
  refine ⟨by omega, ?_⟩
  rw [(struck.plane ip).2.clusters, mem_listed_at]
  exact ⟨_, List.mem_map_of_mem (List.mem_range.mpr listed), direct_strip _ _ _ _ _, rfl⟩

end Solgem
