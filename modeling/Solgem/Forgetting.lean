import Solgem.Bench
import Solgem.DigitizerShape

set_option autoImplicit false

namespace Solgem

open Lib DigitizedPlane Digitizer

variable {F : Type} [Arith F] {rng : Rng F}

-- What comes out of one event: the clusters Digitize records and the strips
-- SetTreeStrips reads after it.
def Digitizer.digitizedOutput (su : Setup F) (d : Digitizer F) (gdata : SimHitData F) :
    Draw rng (List (GEMCluster F) × List (DigiGEMStrip F)) := do
  let d ← d.digitize su gdata
  let d ← d.setTreeStrips su
  pure (d.fEvent.fGEMClust, d.fEvent.fGEMStrips)

-- The hits accepted before any hit of the call draws an ion, each with its
-- event time and trigger offset.
def Setup.leadingIonless (rng : Rng F) (su : Setup F) (fSource : Int) : List (GEMHitData F) → rng.State → List (F × F)
  | [], _ => []
  | h :: rest, st =>
      if (su.accepts h).isNone then leadingIonless rng su fSource rest st
      else if toUInt32 (rng.poisson .trnd (h.fEdep / su.par.fGasWion) st).1 = 0 then
        match (su.drawEventTime fSource h : Draw rng F) (rng.poisson .trnd (h.fEdep / su.par.fGasWion) st).2,
            su.par.fTriggerOffset[h.fPlane]? with
        | .ok (event_time, st'), some offset => (event_time, offset) :: leadingIonless rng su fSource rest st'
        | _, _ => []
      else []

-- Two drift times left over by earlier hits give these hits the same time.
def Setup.SameLeftover (rng : Rng F) (su : Setup F) (gdata : SimHitData F) (st : rng.State) (left right : F) : Prop :=
  ∀ hit ∈ su.leadingIonless rng gdata.fSource gdata.fHitData (rng.gaus .trnd 0.0 su.par.fTriggerJitter st).2,
    Arith.single (Setup.timeZero hit.1 hit.2 left (rng.gaus .trnd 0.0 su.par.fTriggerJitter st).1) =
      Arith.single (Setup.timeZero hit.1 hit.2 right (rng.gaus .trnd 0.0 su.par.fTriggerJitter st).1)

-- Two states of the hit loop that may differ in the clusters recorded so far
-- and in what IonModel left over.
structure Alike (d d' : Digitizer F) : Prop where
  planes : d.fDP = d'.fDP
  idle : d.fdh = none
  idle' : d'.fdh = none
  count : d.fEvent.fGEMClust.length = d'.fEvent.fGEMClust.length

-- The same once the left-over drift time agrees: from here on both runs
-- record the same clusters.
structure InStep (before before' : List (GEMCluster F)) (d d' : Digitizer F) : Prop where
  alike : Alike d d'
  drift : d.ion.fRTime0 = d'.ion.fRTime0
  grown : ∃ more, d.fEvent.fGEMClust = before ++ more ∧ d'.fEvent.fGEMClust = before' ++ more

-- Only the drift time is read of an ion state without ions.
structure SameIons (ion ion' : IonState F) : Prop where
  drift : ion.fRTime0 = ion'.fRTime0
  number : ion.fRNIon = ion'.fRNIon
  whole : 0 < ion.fRNIon → ion = ion'

theorem same_ions_of_drift (par : Params F) (xi xo : V3 F) (elost : F) (ion ion' : IonState F)
    (drift : ion.fRTime0 = ion'.fRTime0) (st : rng.State) :
    Agree SameIons ((ionModel par xi xo elost ion : Draw rng _) st) ((ionModel par xi xo elost ion' : Draw rng _) st) := by
  by_cases no_ion : toUInt32 (rng.poisson .trnd (elost / par.fGasWion) st).1 = 0
  · rw [ion_model_no_ion rng par xi xo elost ion st no_ion, ion_model_no_ion rng par xi xo elost ion' st no_ion]
    exact Agree.ok _ _ _ ⟨drift, rfl, fun some_ion => absurd some_ion (Nat.lt_irrefl 0)⟩
  · rw [ion_model_forgets rng par xi xo elost ion ion' st no_ion]
    exact agree_refl _ (fun _ => ⟨rfl, rfl, fun _ => rfl⟩) _

theorem tree_hit_time (su : Setup F) (fSource : Int) (h : GEMHitData F) (ch : GEMChamber F)
    (fdh : Option (Fin 2 → GEMHit F)) (size : Nat) (t t' : F) :
    su.treeHit fSource h ch fdh size t = su.treeHit fSource h ch fdh size t' ↔ Arith.single t = Arith.single t' := by
  constructor
  · intro same
    exact congrArg GEMCluster.fTime same
  · intro same
    rw [Setup.treeHit, Setup.treeHit, same]

namespace Digitizer

theorem cumulate_hit_agree (su : Setup F) (d d' : Digitizer F) (h : GEMHitData F) (id : Int) (planes : d.fDP = d'.fDP)
    (avalanche : d.fdh = d'.fdh) (st : rng.State) :
    Agree (fun e e' => (e.fDP = e'.fDP ∧ e.fdh = none ∧ e'.fdh = none) ∧
        (e.ion = d.ion ∧ e'.ion = d'.ion) ∧ e.fEvent = d.fEvent ∧ e'.fEvent = d'.fEvent)
      ((d.cumulateHit su h id : Draw rng _) st) ((d'.cumulateHit su h id : Draw rng _) st) := by
  rw [cumulateHit, cumulateHit, ← avalanche, ← planes]
  cases kept : d.fdh with
  | none => exact Agree.ok d d' st ⟨⟨planes, kept, avalanche.symm.trans kept⟩, ⟨rfl, rfl⟩, rfl, rfl⟩
  | some vv =>
      refine agree_bind Eq _ _ _ _ _ st (agree_refl Eq (fun _ => rfl) _) ?_
      rintro first _ st1 rfl
      refine agree_bind Eq _ _ _ _ _ st1 (agree_refl Eq (fun _ => rfl) _) ?_
      rintro second _ st2 rfl
      refine Agree.ok _ _ st2 ⟨⟨?_, rfl, rfl⟩, ⟨rfl, rfl⟩, rfl, rfl⟩
      rw [updatePlane, updatePlane, updatePlane, updatePlane, planes]

theorem digitize_accepted_agree (su : Setup F) (fSource : Int) (trigger_jitter : F) (d d' : Digitizer F) (h : GEMHitData F)
    (ch : GEMChamber F) (alike : Alike d d') (st : rng.State)
    (ions : Agree SameIons ((ionModel su.par h.fXi h.fXo h.fEdep d.ion : Draw rng _) st)
      ((ionModel su.par h.fXi h.fXo h.fEdep d'.ion : Draw rng _) st)) :
    Agree (InStep d.fEvent.fGEMClust d'.fEvent.fGEMClust)
      ((d.digitizeAccepted su fSource trigger_jitter h ch : Draw rng _) st)
      ((d'.digitizeAccepted su fSource trigger_jitter h ch : Draw rng _) st) := by
  refine agree_bind SameIons _ _ _ _ _ st ions ?_
  rintro ion ion' st1 same
  refine agree_bind Eq _ _ _ _ _ st1 (agree_refl Eq (fun _ => rfl) _) ?_
  rintro event_time _ st2 rfl
  refine agree_bind Eq _ _ _ _ _ st2 (agree_refl Eq (fun _ => rfl) _) ?_
  rintro offset _ st3 rfl
  rw [← same.drift]
  have avalanches : avalanche su { d with ion := ion } h ch (Setup.timeZero event_time offset ion.fRTime0 trigger_jitter) =
      avalanche su { d' with ion := ion' } h ch (Setup.timeZero event_time offset ion.fRTime0 trigger_jitter) := by
    by_cases some_ion : 0 < ion.fRNIon
    · rw [same.whole some_ion, avalanche, avalanche, if_pos (same.whole some_ion ▸ some_ion), if_pos (same.whole some_ion ▸ some_ion)]
    · rw [avalanche, avalanche, if_neg some_ion, if_neg (same.number ▸ some_ion), alike.idle, alike.idle']
  refine agree_bind Eq _ _ _ _ _ st3 (by rw [avalanches]; exact agree_refl Eq (fun _ => rfl) _) ?_
  rintro fdh _ st4 rfl
  simp only [set_tree_hit_state, set_tree_hit_id, alike.count]
  let hit := su.treeHit fSource h ch fdh d'.fEvent.fGEMClust.length
    (Setup.timeZero event_time offset ion.fRTime0 trigger_jitter)
  have cumulated := cumulate_hit_agree su { d with ion := ion, fdh := fdh, fEvent := d.fEvent.recordHit hit }
    { d' with ion := ion', fdh := fdh, fEvent := d'.fEvent.recordHit hit } h (toInt16 (d'.fEvent.fGEMClust.length + 1))
    alike.planes rfl st4
  refine agree_mono _ _ ?_ _ _ cumulated
  rintro e e' ⟨⟨planes, idle, idle'⟩, ⟨drawn, drawn'⟩, event, event'⟩
  refine ⟨⟨planes, idle, idle', ?_⟩, by rw [drawn, drawn']; exact same.drift, [_], by rw [event]; rfl, by rw [event']; rfl⟩
  rw [event, event']
  simp [SimEvent.recordHit, alike.count]

theorem digitize_hit_in_step (su : Setup F) (fSource : Int) (trigger_jitter : F) (before before' : List (GEMCluster F))
    (d d' : Digitizer F) (h : GEMHitData F) (st : rng.State) (together : InStep before before' d d') :
    Agree (InStep before before') ((digitizeHit su fSource trigger_jitter d h : Draw rng _) st)
      ((digitizeHit su fSource trigger_jitter d' h : Draw rng _) st) := by
  rw [digitizeHit, digitizeHit]
  cases su.accepts h with
  | none => exact Agree.ok d d' st together
  | some ch =>
      obtain ⟨more, recorded, recorded'⟩ := together.grown
      refine agree_mono _ _ ?_ _ _ (digitize_accepted_agree su fSource trigger_jitter d d' h ch together.alike st
        (same_ions_of_drift su.par h.fXi h.fXo h.fEdep d.ion d'.ion together.drift st))
      rintro e e' ⟨alike, drift, last, appended, appended'⟩
      refine ⟨alike, drift, more ++ last, ?_, ?_⟩
      · rw [appended, recorded, List.append_assoc]
      · rw [appended', recorded', List.append_assoc]

theorem digitize_accepted_no_offset (rng : Rng F) (su : Setup F) (fSource : Int) (trigger_jitter : F) (d : Digitizer F)
    (h : GEMHitData F) (ch : GEMChamber F) (st st' : rng.State)
    (no_ion : toUInt32 (rng.poisson .trnd (h.fEdep / su.par.fGasWion) st).1 = 0) (event_time : F)
    (timed : (su.drawEventTime fSource h : Draw rng _) (rng.poisson .trnd (h.fEdep / su.par.fGasWion) st).2 =
      .ok (event_time, st')) (missing : su.par.fTriggerOffset[h.fPlane]? = none) :
    (d.digitizeAccepted su fSource trigger_jitter h ch : Draw rng _) st = .error .badAccess := by
  rw [digitizeAccepted, draw_bind_of _ _ _ st _ (ion_model_no_ion rng su.par h.fXi h.fXo h.fEdep d.ion st no_ion),
    draw_bind_of _ _ _ _ _ timed, missing]
  exact draw_bind_error _ _ .badAccess st' rfl

def recordIonless (su : Setup F) (fSource : Int) (trigger_jitter : F) (d : Digitizer F) (h : GEMHitData F) (ch : GEMChamber F)
    (event_time offset : F) : Digitizer F :=
  { d with
    ion := { d.ion with fRNIon := 0 }
    fEvent := d.fEvent.recordHit (su.treeHit fSource h ch none d.fEvent.fGEMClust.length
      (Setup.timeZero event_time offset d.ion.fRTime0 trigger_jitter)) }

theorem record_ionless_alike (su : Setup F) (fSource : Int) (trigger_jitter : F) (d d' : Digitizer F) (h : GEMHitData F)
    (ch : GEMChamber F) (event_time offset : F) (alike : Alike d d') :
    Alike (d.recordIonless su fSource trigger_jitter h ch event_time offset)
      (d'.recordIonless su fSource trigger_jitter h ch event_time offset) :=
  ⟨alike.planes, alike.idle, alike.idle', by simp [recordIonless, SimEvent.recordHit, alike.count]⟩

theorem record_ionless_clusters (su : Setup F) (fSource : Int) (trigger_jitter : F) (d d' : Digitizer F) (h : GEMHitData F)
    (ch : GEMChamber F) (event_time offset : F) (alike : Alike d d') :
    (d.recordIonless su fSource trigger_jitter h ch event_time offset).fEvent.fGEMClust =
        (d'.recordIonless su fSource trigger_jitter h ch event_time offset).fEvent.fGEMClust ↔
      d.fEvent.fGEMClust = d'.fEvent.fGEMClust ∧
        Arith.single (Setup.timeZero event_time offset d.ion.fRTime0 trigger_jitter) =
          Arith.single (Setup.timeZero event_time offset d'.ion.fRTime0 trigger_jitter) := by
  simp only [recordIonless, SimEvent.recordHit, alike.count]
  rw [List.append_singleton_inj, tree_hit_time]

-- Two runs of the hit loop differ at most in the times of the hits that come
-- before the first ion.
theorem hits_forget (su : Setup F) (fSource : Int) (trigger_jitter : F) (hits : List (GEMHitData F)) (d d' : Digitizer F)
    (alike : Alike d d') (st : rng.State) :
    Agree (fun e e' => e.fDP = e'.fDP ∧ (e.fEvent.fGEMClust = e'.fEvent.fGEMClust ↔
        d.fEvent.fGEMClust = d'.fEvent.fGEMClust ∧ ∀ hit ∈ su.leadingIonless rng fSource hits st,
          Arith.single (Setup.timeZero hit.1 hit.2 d.ion.fRTime0 trigger_jitter) =
            Arith.single (Setup.timeZero hit.1 hit.2 d'.ion.fRTime0 trigger_jitter)))
      ((hits.foldlM (digitizeHit su fSource trigger_jitter) d : Draw rng _) st)
      ((hits.foldlM (digitizeHit su fSource trigger_jitter) d' : Draw rng _) st) := by
  induction hits generalizing d d' st with
  | nil => exact Agree.ok d d' st ⟨alike.planes, by simp [Setup.leadingIonless]⟩
  | cons h rest ih =>
      rw [List.foldlM_cons, List.foldlM_cons, Setup.leadingIonless, digitizeHit, digitizeHit]
      cases found : su.accepts h with
      | none => exact ih d d' alike st
      | some ch =>
          simp only [Option.isNone_some, Bool.false_eq_true, if_false]
          by_cases no_ion : toUInt32 (rng.poisson .trnd (h.fEdep / su.par.fGasWion) st).1 = 0
          · rw [if_pos no_ion]
            obtain ⟨event_time, st', timed, _⟩ := ensures_total _ _ (draw_event_time_total su fSource h
              (rng.poisson .trnd (h.fEdep / su.par.fGasWion) st).2)
            cases offset : su.par.fTriggerOffset[h.fPlane]? with
            | none =>
                have failed := fun d => digitize_accepted_no_offset rng su fSource trigger_jitter d h ch st st' no_ion
                  event_time timed offset
                rw [draw_bind_error _ _ _ st (failed d), draw_bind_error _ _ _ st (failed d')]
                exact Agree.error _
            | some start =>
                have ran : ∀ d : Digitizer F, d.fdh = none →
                    (d.digitizeAccepted su fSource trigger_jitter h ch : Draw rng _) st =
                      .ok (d.recordIonless su fSource trigger_jitter h ch event_time start, st') := fun d idle =>
                  digitize_accepted_no_ion rng su fSource trigger_jitter d h ch idle st st' no_ion event_time start timed offset
                rw [draw_bind_of _ _ _ st _ (ran d alike.idle), draw_bind_of _ _ _ st _ (ran d' alike.idle'), timed]
                refine agree_mono _ _ ?_ _ _ (ih _ _ (record_ionless_alike su fSource trigger_jitter d d' h ch event_time start alike) st')
                rintro e e' ⟨planes, clusters⟩
                refine ⟨planes, clusters.trans ?_⟩
                rw [record_ionless_clusters su fSource trigger_jitter d d' h ch event_time start alike, List.forall_mem_cons, and_assoc]
                exact Iff.rfl
          · -- The ions of this hit reset what the earlier hits left over.
            rw [if_neg no_ion]
            refine agree_bind _ _ _ _ _ _ st (digitize_accepted_agree su fSource trigger_jitter d d' h ch alike st ?_) ?_
            · rw [ion_model_forgets rng su.par h.fXi h.fXo h.fEdep d.ion d'.ion st no_ion]
              exact agree_refl _ (fun _ => ⟨rfl, rfl, fun _ => rfl⟩) _
            · intro e e' st' together
              refine agree_mono _ _ ?_ _ _ (agree_foldlM _ _ (InStep d.fEvent.fGEMClust d'.fEvent.fGEMClust)
                (fun a b h s together => digitize_hit_in_step su fSource trigger_jitter _ _ a b h s together) rest e e' st' together)
              rintro f f' ⟨alike, _, more, recorded, recorded'⟩
              refine ⟨alike.planes, ?_⟩
              rw [recorded, recorded', List.append_cancel_right_eq]
              simp

theorem cleared_alike (su : Setup F) (d d' : Digitizer F) (steady : Steady su d) (steady' : Steady su d') :
    Alike d.clearAll d'.clearAll :=
  ⟨(clear_all_planes su d steady).trans (clear_all_planes su d' steady').symm, steady.idle, steady'.idle, rfl⟩

theorem digitize_agree (su : Setup F) (d d' : Digitizer F) (steady : Steady su d) (steady' : Steady su d')
    (gdata : SimHitData F) (st : rng.State) :
    Agree (fun e e' => e.fDP = e'.fDP ∧ (e.fEvent.fGEMClust = e'.fEvent.fGEMClust ↔
        su.SameLeftover rng gdata st d.ion.fRTime0 d'.ion.fRTime0))
      ((d.digitize su gdata : Draw rng _) st) ((d'.digitize su gdata : Draw rng _) st) := by
  have alike := cleared_alike su d d' steady steady'
  rw [digitize, digitize, additiveDigitize, additiveDigitize, Setup.SameLeftover]
  cases gdata.fHitData with
  | nil => exact Agree.ok _ _ st ⟨alike.planes, by simp [Setup.leadingIonless, clearAll, SimEvent.clear]⟩
  | cons h rest =>
      dsimp only
      rw [draw_bind_of _ _ _ st _ rfl, draw_bind_of _ _ _ st _ rfl]
      refine agree_bind _ _ _ _ _ _ _ (hits_forget su gdata.fSource _ (h :: rest) d.clearAll d'.clearAll alike _) ?_
      rintro e e' st' ⟨planes, clusters⟩
      refine Agree.ok _ _ st' ⟨planes, clusters.trans ?_⟩
      simp [clearAll, SimEvent.clear]

end Digitizer

theorem same_leftover_real (rng : Rng ℝ) (su : Setup ℝ) (gdata : SimHitData ℝ) (st : rng.State) (left right : ℝ) :
    su.SameLeftover rng gdata st left right ↔
      su.leadingIonless rng gdata.fSource gdata.fHitData (rng.gaus .trnd 0.0 su.par.fTriggerJitter st).2 = [] ∨ left = right := by
  rw [Setup.SameLeftover]
  cases su.leadingIonless rng gdata.fSource gdata.fHitData (rng.gaus .trnd 0.0 su.par.fTriggerJitter st).2 with
  | nil => simp
  | cons first rest =>
      constructor
      · intro same
        have times := same first (List.mem_cons_self ..)
        change first.1 - first.2 + left * 1e9 - _ = first.1 - first.2 + right * 1e9 - _ at times
        norm_num at times
        exact .inr times
      · rintro (empty | same) hit _
        · cases empty
        · rw [same]

noncomputable def stray (z : ℝ) : GEMHitData ℝ := { crossing with fXi := ⟨10, 10, 0⟩, fXo := ⟨10, 10, z⟩ }

theorem stray_accepted (z : ℝ) : (bench 3 1).accepts (stray z) = some (benchChamber 3) := by
  have short : ¬ ((50.0 : ℝ) < |(10 : ℝ) - 10| ∨ (50.0 : ℝ) < |(10 : ℝ) - 10|) := by
    norm_num
  exact if_neg short

theorem stray_ions (z : ℝ) (low : 0 ≤ z) (high : z ≤ 3) (ion : IonState ℝ) :
    ∃ ion', (ionModel (bench 3 1).par (stray z).fXi (stray z).fXo (stray z).fEdep ion : Draw (Rng.scripted ℝ) _) [1] =
      .ok (ion', []) ∧ 0 < ion'.fRNIon ∧ ion'.fRTime0 = 9 - z / 2 := by
  refine ⟨_, rfl, Nat.zero_lt_one, ?_⟩
  change tmin (|9 - |(0 : ℝ) - 0| - (z - 0) * ((0.0 + 1.0) / 2.0)| / 1) (999999.0 : ℝ) = 9 - z / 2
  have depth : |9 - |(0 : ℝ) - 0| - (z - 0) * ((0.0 + 1.0) / 2.0)| / 1 = 9 - z / 2 := by
    rw [sub_self, abs_zero, abs_of_nonneg (by norm_num; linarith)]
    norm_num
    ring
  rw [depth, tmin, if_pos (by norm_num; linarith)]

theorem stray_lost (z : ℝ) (ion : IonState ℝ) (t0 : ℝ) :
    avaModel (bench 3 1).par ion (benchChamber 3) (stray z).fXi (stray z).fXo t0 = .ok none := by
  have reach : (bench 3 1).par.fAvalancheFiducialBand * ion.fRSMax = 0 := zero_mul _
  have area : diffusionArea (bench 3 1).par ion (stray z).fXi (stray z).fXo = ⟨10, 10, 10, 10⟩ := by
    simp only [diffusionArea, reach]
    simp [stray]
  have outside : activeRegion (benchChamber 3) ⟨10, 10, 10, 10⟩ = none := by
    have zero : toUInt32 0 = 0 := by decide
    have two : toUInt32 2 = 2 := by decide
    simp only [activeRegion, benchChamber, GEMPlane.getStripUpperEdge, GEMPlane.getStripLowerEdge]
    norm_num [zero, two, Arith.ofInt]
  rw [avaModel, area, outside]
  rfl

theorem stray_event (z : ℝ) (low : 0 ≤ z) (high : z ≤ 3) :
    ∃ d, Reachable (Rng.scripted ℝ) (bench 3 1) d ∧ d.ion.fRTime0 = 9 - z / 2 := by
  let start := (Digitizer.new (bench 3 1) unwritten none).clearAll
  obtain ⟨ion, ions, some_ion, drift⟩ := stray_ions z low high start.ion
  let struck : Digitizer ℝ := { start with
    ion := ion
    fEvent := start.fEvent.recordHit ((bench 3 1).treeHit 0 (stray z) (benchChamber 3) none 0
      (Setup.timeZero 0 0 ion.fRTime0 0)) }
  have accepted : (start.digitizeAccepted (bench 3 1) 0 0 (stray z) (benchChamber 3) : Draw (Rng.scripted ℝ) _) [1] =
      .ok (struck, []) := by
    refine (@draw_bind_of ℝ (Rng.scripted ℝ) _ _ _ _ ion [1] [] ions).trans ?_
    refine (@draw_bind_of ℝ (Rng.scripted ℝ) _ _ _ _ 0 [] [] rfl).trans ?_
    refine (@draw_bind_of ℝ (Rng.scripted ℝ) _ _ _ _ 0 [] [] rfl).trans ?_
    refine (@draw_bind_of ℝ (Rng.scripted ℝ) _ _ _ _ none [] [] ?_).trans rfl
    rw [avalanche, if_pos some_ion, stray_lost]
    rfl
  have loop : ([stray z].foldlM (Digitizer.digitizeHit (bench 3 1) 0 0) start : Draw (Rng.scripted ℝ) _) [1] =
      .ok (struck, []) := by
    simp only [List.foldlM_cons, List.foldlM_nil, bind_pure]
    rw [Digitizer.digitizeHit, stray_accepted]
    exact accepted
  have digitized : ((Digitizer.new (bench 3 1) unwritten none).digitize (bench 3 1) ⟨0, 0, 0, [stray z]⟩ :
      Draw (Rng.scripted ℝ) _) [1] = .ok ({ struck with fFilledStrips := false }, []) :=
    (@draw_bind_of ℝ (Rng.scripted ℝ) _ _ _ _ 0 [1] [1] (bench_jitter [1])).trans
      (@draw_bind_of ℝ (Rng.scripted ℝ) _ _ _ _ struck [1] [] loop)
  exact ⟨_, Reachable.call _ _ (.digitize ⟨0, 0, 0, [stray z]⟩) [1] [] (Reachable.init unwritten none) digitized, drift⟩

theorem ionless_event (d : Digitizer ℝ) (reachable : Reachable (Rng.scripted ℝ) (bench 3 1) d) :
    ∃ out st, (d.digitizedOutput (bench 3 1) crossingData : Draw (Rng.scripted ℝ) _) [] = .ok (out, st) ∧
      out.1 = [(bench 3 1).treeHit 0 crossing (benchChamber 3) none 0 (Setup.timeZero 0 0 d.ion.fRTime0 0)] := by
  have steady := reachable_steady (bench 3 1) d reachable
  let recorded : Digitizer ℝ :=
    { d.clearAll.recordIonless (bench 3 1) 0 0 crossing (benchChamber 3) 0 0 with fFilledStrips := false }
  have digitized : (d.clearAll.additiveDigitize (bench 3 1) crossingData : Draw (Rng.scripted ℝ) _) [] = .ok (recorded, []) :=
    bench_no_ion 3 1 d.clearAll steady.idle [] rfl
  have small : (∃ strip ∈ strips (bench 3 1) recorded.fDP, 32768 ≤ strip.2.2) → False := by
    rintro ⟨strip, member, large⟩
    obtain ⟨chamber, below⟩ := (mem_strips (bench 3 1) recorded.fDP strip).mp member
    change _ < (d.clearAll.fDP strip.1 strip.2.1).fNStrips at below
    rw [clear_all_planes (bench 3 1) d steady, bench_strips 3 1 (by decide), if_pos (Nat.lt_one_iff.mp chamber)] at below
    omega
  obtain ⟨filled, st, ran, records, _, kept⟩ := ensures_total _ _
    (@set_tree_strips_shows ℝ _ (Rng.scripted ℝ) _ (bench 3 1) recorded small [])
  refine ⟨_, st, (@draw_bind_of ℝ (Rng.scripted ℝ) _ _ _ _ recorded [] [] digitized).trans
    (@draw_bind_of ℝ (Rng.scripted ℝ) _ _ _ _ filled [] st ran), ?_⟩
  rw [kept]
  rfl

end Solgem
