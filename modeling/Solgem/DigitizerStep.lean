import Solgem.Digitization
import Solgem.Lib.Outcome

set_option autoImplicit false

namespace Solgem

open Lib

variable {F : Type} [Arith F] {rng : Rng F} {fails : Fault → Prop}

theorem ion_step_total (par : Params F) (xi xo : V3 F) (ion : IonState F) (i : Nat) (st : rng.State) :
    Ensures fails (fun _ _ => True) ((ionStep par xi xo ion i : Draw rng _) st) := by
  refine ensures_bind (fun _ _ => True) _ _ _ st trivial fun lion _ _ => ?_
  refine ensures_bind (fun _ _ => True) _ _ _ _ trivial fun spreadX _ _ => ?_
  refine ensures_bind (fun _ _ => True) _ _ _ _ trivial fun spreadY _ _ => ?_
  refine ensures_bind (fun _ _ => True) _ _ _ _ ?_ fun drawn _ _ => trivial
  rw [drawCharge]
  split <;> exact trivial

theorem ion_model_total (par : Params F) (xi xo : V3 F) (elost : F) (ion : IonState F) (st : rng.State) :
    Ensures fails (fun _ _ => True) ((ionModel par xi xo elost ion : Draw rng _) st) := by
  refine ensures_bind (fun _ _ => True) _ _ _ st trivial fun primary mid _ => ?_
  by_cases no_ion : toUInt32 primary = 0
  · simp only [no_ion, if_true]
    exact trivial
  · simp only [no_ion, if_false]
    exact ensures_foldlM _ (fun _ _ _ => True) [] _
      (fun _ i ion s _ _ => ion_step_total par xi xo ion i s) _ mid trivial

theorem ion_model_no_ion (rng : Rng F) (par : Params F) (xi xo : V3 F) (elost : F) (ion : IonState F) (st : rng.State)
    (no_ion : toUInt32 (rng.poisson .trnd (elost / par.fGasWion) st).1 = 0) :
    (ionModel par xi xo elost ion : Draw rng _) st =
      .ok ({ ion with fRNIon := 0 }, (rng.poisson .trnd (elost / par.fGasWion) st).2) := by
  rw [ionModel, draw_bind_of _ _ _ st _ rfl, no_ion, if_pos rfl]
  rfl

theorem ion_model_forgets (rng : Rng F) (par : Params F) (xi xo : V3 F) (elost : F) (ion ion' : IonState F) (st : rng.State)
    (some_ion : ¬ toUInt32 (rng.poisson .trnd (elost / par.fGasWion) st).1 = 0) :
    (ionModel par xi xo elost ion : Draw rng _) st = (ionModel par xi xo elost ion' : Draw rng _) st := by
  rw [ionModel, ionModel, draw_bind_of _ _ _ st _ rfl, draw_bind_of _ _ _ st _ rfl]
  simp only [some_ion, if_false]

theorem draw_event_time_total (su : Setup F) (fSource : Int) (h : GEMHitData F) (st : rng.State) :
    Ensures fails (fun _ _ => True) ((su.drawEventTime fSource h : Draw rng _) st) := by
  rw [Setup.drawEventTime]
  split
  · exact ensures_bind (fun _ _ => True) _ _ _ st trivial fun _ _ _ => trivial
  · exact trivial

theorem accepts_chamber (su : Setup F) (h : GEMHitData F) (ch : GEMChamber F) (accepted : su.accepts h = some ch) :
    su.spec[h.fGem]? = some ch := by
  rw [Setup.accepts] at accepted
  cases found : su.spec[h.fGem]? with
  | none =>
      rw [found] at accepted
      cases accepted
  | some ch' =>
      simp only [found] at accepted
      split at accepted <;> cases accepted
      rfl

namespace Digitizer

theorem set_tree_hit_state (su : Setup F) (fSource : Int) (d : Digitizer F) (h : GEMHitData F) (ch : GEMChamber F) (t0 : F) :
    (setTreeHit su fSource d h ch t0).1 =
      { d with fEvent := d.fEvent.recordHit (su.treeHit fSource h ch d.fdh d.fEvent.fGEMClust.length t0) } := by
  rw [setTreeHit]

theorem set_tree_hit_id (su : Setup F) (fSource : Int) (d : Digitizer F) (h : GEMHitData F) (ch : GEMChamber F) (t0 : F) :
    (setTreeHit su fSource d h ch t0).2 = toInt16 (d.fEvent.fGEMClust.length + 1) := by
  rw [setTreeHit, Setup.treeHit]

-- Everything a hit that is not skipped does before Cumulate: the ions, the
-- avalanche they make, and the cluster recorded for it.
theorem digitize_accepted_ensures (su : Setup F) (fSource : Int) (trigger_jitter : F) (d : Digitizer F) (h : GEMHitData F)
    (ch : GEMChamber F) (st : rng.State) (post : Digitizer F → rng.State → Prop) (access : fails .badAccess)
    (model : ∀ ion time_zero fault, avalanche su { d with ion := ion } h ch time_zero = .error fault → fails fault)
    (next : ∀ ion st1 time_zero fdh st', (ionModel su.par h.fXi h.fXo h.fEdep d.ion : Draw rng _) st = .ok (ion, st1) →
      avalanche su { d with ion := ion } h ch time_zero = .ok fdh →
      Ensures fails post ((cumulateHit su (setTreeHit su fSource { d with ion := ion, fdh := fdh } h ch time_zero).1 h
        (setTreeHit su fSource { d with ion := ion, fdh := fdh } h ch time_zero).2 : Draw rng _) st')) :
    Ensures fails post ((d.digitizeAccepted su fSource trigger_jitter h ch : Draw rng _) st) := by
  refine ensures_bind _ _ _ _ st (ensures_run _ _ (ion_model_total _ _ _ _ _ st)) fun ion st1 ions => ?_
  refine ensures_bind (fun _ _ => True) _ _ _ st1 (draw_event_time_total su fSource h st1) fun event_time st2 _ => ?_
  refine ensures_bind (fun _ s => s = st2) _ _ _ st2 ?_ fun offset st3 same => ?_
  · cases su.par.fTriggerOffset[h.fPlane]? with
    | none => exact access
    | some offset => exact rfl
  subst same
  refine ensures_bind (fun fdh _ => avalanche su { d with ion := ion } h ch
    (Setup.timeZero event_time offset ion.fRTime0 trigger_jitter) = .ok fdh) _ _ _ st3 ?_ fun fdh st4 outcome => ?_
  · cases outcome : avalanche su { d with ion := ion } h ch (Setup.timeZero event_time offset ion.fRTime0 trigger_jitter) with
    | error fault => exact model ion _ fault outcome
    | ok fdh => exact rfl
  · exact next ion st1 _ fdh st4 ions.2 outcome

-- A hit that draws no ion leaves the planes alone. The time it is recorded at
-- takes the drift time of whatever hit came before.
theorem digitize_accepted_no_ion (rng : Rng F) (su : Setup F) (fSource : Int) (trigger_jitter : F) (d : Digitizer F) (h : GEMHitData F)
    (ch : GEMChamber F) (idle : d.fdh = none) (st st' : rng.State)
    (no_ion : toUInt32 (rng.poisson .trnd (h.fEdep / su.par.fGasWion) st).1 = 0) (event_time offset : F)
    (timed : (su.drawEventTime fSource h : Draw rng _) (rng.poisson .trnd (h.fEdep / su.par.fGasWion) st).2 =
      .ok (event_time, st')) (found : su.par.fTriggerOffset[h.fPlane]? = some offset) :
    (d.digitizeAccepted su fSource trigger_jitter h ch : Draw rng _) st =
      .ok ({ d with
        ion := { d.ion with fRNIon := 0 }
        fEvent := d.fEvent.recordHit (su.treeHit fSource h ch none d.fEvent.fGEMClust.length
          (Setup.timeZero event_time offset d.ion.fRTime0 trigger_jitter)) }, st') := by
  rw [digitizeAccepted, draw_bind_of _ _ _ st _ (ion_model_no_ion rng su.par h.fXi h.fXo h.fEdep d.ion st no_ion),
    draw_bind_of _ _ _ _ _ timed, found, draw_bind_of _ _ offset st' st' rfl, draw_bind_of _ _ none st' st' (by rw [avalanche, if_neg (Nat.lt_irrefl 0), idle]; rfl)]
  simp only [set_tree_hit_state]
  rw [cumulateHit]
  cases d
  cases idle
  rfl

theorem digitize_hit_ensures (su : Setup F) (fSource : Int) (trigger_jitter : F) (d : Digitizer F) (h : GEMHitData F)
    (st : rng.State) (post : Digitizer F → rng.State → Prop) (skipped : su.accepts h = none → post d st)
    (accepted : ∀ ch, su.accepts h = some ch →
      Ensures fails post ((d.digitizeAccepted su fSource trigger_jitter h ch : Draw rng _) st)) :
    Ensures fails post ((digitizeHit su fSource trigger_jitter d h : Draw rng _) st) := by
  rw [digitizeHit]
  cases found : su.accepts h with
  | none => exact skipped found
  | some ch => exact accepted ch found

theorem cumulate_hit_frame (su : Setup F) (d : Digitizer F) (h : GEMHitData F) (id : Int) (any : ∀ fault, fails fault)
    (st : rng.State) :
    Ensures fails (fun d' _ => ∃ fDP fdh, d' = { d with fDP := fDP, fdh := fdh })
      ((d.cumulateHit su h id : Draw rng _) st) := by
  rw [cumulateHit]
  cases d.fdh with
  | none => exact ⟨d.fDP, d.fdh, rfl⟩
  | some vv =>
      refine ensures_bind (fun _ _ => True) _ _ _ st (ensures_of_ok _ _ any (fun _ _ _ => trivial)) fun first st1 _ => ?_
      refine ensures_bind (fun _ _ => True) _ _ _ st1 (ensures_of_ok _ _ any (fun _ _ _ => trivial)) fun second st2 _ => ?_
      exact ⟨_, none, rfl⟩

-- What a hit does outside the planes: one cluster more unless it is skipped.
structure HitEffect (su : Setup F) (h : GEMHitData F) (d d' : Digitizer F) : Prop where
  tree : d'.fOTree = d.fOTree
  count : d'.fEvent.fGEMClust.length = d.fEvent.fGEMClust.length + if (su.accepts h).isSome then 1 else 0
  recorded : d'.fEvent.fGEMClust = d.fEvent.fGEMClust ∨ ∃ fSource ch fdh t0,
    d'.fEvent.fGEMClust = d.fEvent.fGEMClust ++ [su.treeHit fSource h ch fdh d.fEvent.fGEMClust.length t0]

theorem digitize_hit_effect (su : Setup F) (fSource : Int) (trigger_jitter : F) (d : Digitizer F) (h : GEMHitData F)
    (any : ∀ fault, fails fault) (st : rng.State) :
    Ensures fails (fun d' _ => HitEffect su h d d') ((digitizeHit su fSource trigger_jitter d h : Draw rng _) st) := by
  refine digitize_hit_ensures su fSource trigger_jitter d h st _ (fun skipped => ?_) (fun ch accepted => ?_)
  · exact ⟨rfl, by simp [skipped], .inl rfl⟩
  · refine digitize_accepted_ensures su fSource trigger_jitter d h ch st _ (any _) (fun _ _ _ _ => any _) ?_
    intro ion _ time_zero fdh st' _ _
    refine ensures_mono _ _ ?_ _ (cumulate_hit_frame su _ h _ any st')
    rintro d' _ ⟨fDP, released, rfl⟩
    rw [set_tree_hit_state]
    exact ⟨rfl, by simp [accepted, SimEvent.recordHit], .inr ⟨fSource, ch, fdh, time_zero, rfl⟩⟩

-- Every hit of a data set comes up in a state that meets a condition.
def HitsMeet (rng : Rng F) (su : Setup F) (meets : Digitizer F → GEMHitData F → rng.State → Prop) (d : Digitizer F)
    (gdata : SimHitData F) (st : rng.State) : Prop :=
  let (trigger_jitter, st1) := rng.gaus .trnd 0.0 su.par.fTriggerJitter st
  Along (digitizeHit su gdata.fSource trigger_jitter) meets gdata.fHitData d st1

-- The hit loop runs on the state as it is; the flag is cleared behind it.
theorem additive_digitize_along (su : Setup F) (d : Digitizer F) (gdata : SimHitData F) (st : rng.State)
    (meets : Digitizer F → GEMHitData F → rng.State → Prop) (along : HitsMeet rng su meets d gdata st)
    (inv : List (GEMHitData F) → Digitizer F → Prop) (initial : inv [] d)
    (step : ∀ trigger_jitter past h d st, h ∈ gdata.fHitData → meets d h st → inv past d →
      Ensures fails (fun d' _ => inv (past ++ [h]) d') ((digitizeHit su gdata.fSource trigger_jitter d h : Draw rng _) st)) :
    Ensures fails (fun d' _ => (gdata.fHitData = [] ∧ d' = d) ∨
      (gdata.fHitData ≠ [] ∧ ∃ looped, inv gdata.fHitData looped ∧ d' = { looped with fFilledStrips := false }))
      ((d.additiveDigitize su gdata : Draw rng _) st) := by
  rw [additiveDigitize]
  rw [HitsMeet] at along
  cases hits : gdata.fHitData with
  | nil => exact .inl ⟨rfl, rfl⟩
  | cons h rest =>
      rw [hits] at along step
      refine ensures_bind (fun trigger_jitter st1 => (trigger_jitter, st1) = rng.gaus .trnd 0.0 su.par.fTriggerJitter st)
        _ _ _ st rfl fun trigger_jitter st1 drawn => ?_
      rw [← drawn] at along
      refine ensures_bind (fun looped _ => inv (h :: rest) looped) _ _ _ st1 ?_ fun looped st2 kept => ?_
      · exact ensures_foldlM_along _ meets (fun past d _ => inv past d) [] (h :: rest)
          (fun past b d s member meets kept => step trigger_jitter past b d s member meets kept) d st1 along initial
      · exact .inr ⟨List.cons_ne_nil h rest, looped, kept, rfl⟩

theorem additive_digitize_ensures (su : Setup F) (d : Digitizer F) (gdata : SimHitData F) (st : rng.State)
    (inv : List (GEMHitData F) → Digitizer F → Prop) (initial : inv [] d)
    (step : ∀ trigger_jitter past h d st, h ∈ gdata.fHitData → inv past d →
      Ensures fails (fun d' _ => inv (past ++ [h]) d') ((digitizeHit su gdata.fSource trigger_jitter d h : Draw rng _) st)) :
    Ensures fails (fun d' _ => (gdata.fHitData = [] ∧ d' = d) ∨
      (gdata.fHitData ≠ [] ∧ ∃ looped, inv gdata.fHitData looped ∧ d' = { looped with fFilledStrips := false }))
      ((d.additiveDigitize su gdata : Draw rng _) st) :=
  additive_digitize_along su d gdata st (fun _ _ _ => True) (along_of_all _ _ (fun _ _ _ => trivial) _ _ _) inv initial
    (fun trigger_jitter past h d st member _ kept => step trigger_jitter past h d st member kept)

theorem additive_digitize_effect (su : Setup F) (d : Digitizer F) (gdata : SimHitData F) (any : ∀ fault, fails fault)
    (st : rng.State) :
    Ensures fails (fun d' _ => d'.fOTree = d.fOTree ∧ d'.fEvent.fGEMClust.length =
        d.fEvent.fGEMClust.length + gdata.fHitData.countP (fun h => (su.accepts h).isSome))
      ((d.additiveDigitize su gdata : Draw rng _) st) := by
  refine ensures_mono _ _ ?_ _ (additive_digitize_ensures su d gdata st
    (fun done d' => d'.fOTree = d.fOTree ∧ d'.fEvent.fGEMClust.length =
      d.fEvent.fGEMClust.length + done.countP (fun h => (su.accepts h).isSome)) ⟨rfl, by simp⟩ ?_)
  · rintro d' _ (⟨empty, same⟩ | ⟨_, looped, kept, cleared⟩)
    · rw [empty, same]
      exact ⟨rfl, by simp⟩
    · rw [cleared]
      exact kept
  · rintro trigger_jitter done h d1 st1 _ ⟨tree, count⟩
    refine ensures_mono _ _ ?_ _ (digitize_hit_effect su gdata.fSource trigger_jitter d1 h any st1)
    intro d2 _ effect
    refine ⟨effect.tree.trans tree, ?_⟩
    rw [effect.count, count, List.countP_append, List.countP_singleton, Nat.add_assoc]

theorem additive_digitize_skipped (su : Setup F) (d : Digitizer F) (gdata : SimHitData F)
    (skipped : ∀ h ∈ gdata.fHitData, su.accepts h = none) (st : rng.State) :
    Ensures fails (fun d' _ => d' = { d with fFilledStrips := gdata.fHitData.isEmpty && d.fFilledStrips })
      ((d.additiveDigitize su gdata : Draw rng _) st) := by
  refine ensures_mono _ _ ?_ _ (additive_digitize_ensures su d gdata st (fun _ d' => d' = d) rfl ?_)
  · rintro d' _ (⟨empty, same⟩ | ⟨some_hit, looped, kept, cleared⟩)
    · rw [same, empty]
      rfl
    · rw [cleared, kept, List.isEmpty_eq_false_iff.mpr some_hit]
      rfl
  · rintro trigger_jitter _ h d1 st1 member rfl
    refine digitize_hit_ensures su gdata.fSource trigger_jitter d1 h st1 _ (fun _ => rfl) (fun ch accepted => ?_)
    rw [skipped h member] at accepted
    cases accepted

end Digitizer

end Solgem
