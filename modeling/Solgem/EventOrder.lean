import Solgem.Bench
import Solgem.DigitizerStep
import Solgem.TreeEvent
import Solgem.TreeStrips

set_option autoImplicit false

namespace Solgem

open Lib Digitizer

variable {F : Type} [Arith F] {rng : Rng F}

-- The two orders of the class comment. Each of the three calls has the draws
-- of its own purpose: stE, stD and stF are where they start.
def eventFirst (rng : Rng F) (su : Setup F) (d : Digitizer F) (gdata : SimHitData F) (f : Geant4Event F) (evnum : Int)
    (stE stD stF : rng.State) : Except Fault (Digitizer F) := do
  let labelled ← (d.setTreeEvent su gdata f evnum : Draw rng _) stE
  let digitized ← (labelled.1.digitize su gdata : Draw rng _) stD
  let written ← (digitized.1.fillTree su : Draw rng _) stF
  return written.1

def digitizeFirst (rng : Rng F) (su : Setup F) (d : Digitizer F) (gdata : SimHitData F) (f : Geant4Event F) (evnum : Int)
    (stE stD stF : rng.State) : Except Fault (Digitizer F) := do
  let digitized ← (d.digitize su gdata : Draw rng _) stD
  let labelled ← (digitized.1.setTreeEvent su gdata f evnum : Draw rng _) stE
  let written ← (labelled.1.fillTree su : Draw rng _) stF
  return written.1

def RefsExist (e : SimEvent F) : Prop :=
  ∀ record ∈ e.fGEMStrips, ∀ id ∈ record.fClusters, ∃ cluster ∈ e.fGEMClust, cluster.fID = id

structure SameWritten (e e' : SimEvent F) : Prop where
  clusters : e.fGEMClust = e'.fGEMClust
  strips : e.fGEMStrips = e'.fGEMStrips
  signal : e.fNSignal = e'.fNSignal
  tracks : e.fMCTracks = e'.fMCTracks
  ecal : e.fECalClusters = e'.fECalClusters
  scint : e.fScintClusters = e'.fScintClusters

theorem event_first_steps (su : Setup F) (d dA : Digitizer F) (gdata : SimHitData F) (f : Geant4Event F) (evnum : Int)
    (stE stD stF : rng.State) (ran : eventFirst rng su d gdata f evnum stE stD stF = .ok dA) :
    ∃ labelled digitized sE sD sF, (d.setTreeEvent su gdata f evnum : Draw rng _) stE = .ok (labelled, sE) ∧
      (digitize su labelled gdata : Draw rng _) stD = .ok (digitized, sD) ∧
      (digitized.fillTree su : Draw rng _) stF = .ok (dA, sF) := by
  obtain ⟨⟨labelled, sE⟩, label, rest⟩ := (except_bind_ok _ _ _).mp ran
  obtain ⟨⟨digitized, sD⟩, digits, rest⟩ := (except_bind_ok _ _ _).mp rest
  obtain ⟨⟨filled, sF⟩, fill, rest⟩ := (except_bind_ok _ _ _).mp rest
  cases rest
  exact ⟨labelled, digitized, sE, sD, sF, label, digits, fill⟩

theorem digitize_first_steps (su : Setup F) (d dB : Digitizer F) (gdata : SimHitData F) (f : Geant4Event F) (evnum : Int)
    (stE stD stF : rng.State) (ran : digitizeFirst rng su d gdata f evnum stE stD stF = .ok dB) :
    ∃ digitized labelled sD sE sF, (digitize su d gdata : Draw rng _) stD = .ok (digitized, sD) ∧
      (digitized.setTreeEvent su gdata f evnum : Draw rng _) stE = .ok (labelled, sE) ∧
      (labelled.fillTree su : Draw rng _) stF = .ok (dB, sF) := by
  obtain ⟨⟨digitized, sD⟩, digits, rest⟩ := (except_bind_ok _ _ _).mp ran
  obtain ⟨⟨labelled, sE⟩, label, rest⟩ := (except_bind_ok _ _ _).mp rest
  obtain ⟨⟨filled, sF⟩, fill, rest⟩ := (except_bind_ok _ _ _).mp rest
  cases rest
  exact ⟨digitized, labelled, sD, sE, sF, digits, label, fill⟩

theorem fill_tree_ok (su : Setup F) (d d' : Digitizer F) (st st' : rng.State)
    (ran : (d.fillTree su : Draw rng _) st = .ok (d', st')) :
    ∃ records, d'.fOTree = d.fOTree.map (fun events => events ++ [{ d.fEvent with fGEMStrips := records }]) ∧
      ((d.fFilledStrips = true ∧ records = d.fEvent.fGEMStrips) ∨
        (d.fFilledStrips = false ∧ ((strips su d.fDP).mapM (setTreeStrip su d.fDP) : Draw rng _) st = .ok (records, st'))) := by
  rw [fillTree] at ran
  cases flag : d.fFilledStrips with
  | true =>
      rw [flag, if_pos rfl] at ran
      obtain ⟨rfl, rfl⟩ := (draw_pure_ok _ _ _ _).mp ran
      exact ⟨d.fEvent.fGEMStrips, rfl, .inl ⟨rfl, rfl⟩⟩
  | false =>
      rw [flag, if_neg Bool.false_ne_true] at ran
      obtain ⟨filled, mid, first, rest⟩ := (draw_bind_ok _ _ _ _ _).mp ran
      obtain ⟨rfl, rfl⟩ := (draw_pure_ok _ _ _ _).mp rest
      obtain ⟨records, read, rfl⟩ := set_tree_strips_ok su d filled st _ first
      exact ⟨records, rfl, .inr ⟨rfl, read⟩⟩

-- The strip list FillTree writes depends on the planes, the flag and the list
-- the event has.
theorem fill_tree_records (su : Setup F) (d d' : Digitizer F) (planes : d.fDP = d'.fDP) (flags : d.fFilledStrips = d'.fFilledStrips)
    (listed : d.fEvent.fGEMStrips = d'.fEvent.fGEMStrips) (st s s' : rng.State) (records records' : List (DigiGEMStrip F))
    (filled : (d.fFilledStrips = true ∧ records = d.fEvent.fGEMStrips) ∨
      (d.fFilledStrips = false ∧ ((strips su d.fDP).mapM (setTreeStrip su d.fDP) : Draw rng _) st = .ok (records, s)))
    (filled' : (d'.fFilledStrips = true ∧ records' = d'.fEvent.fGEMStrips) ∨
      (d'.fFilledStrips = false ∧ ((strips su d'.fDP).mapM (setTreeStrip su d'.fDP) : Draw rng _) st = .ok (records', s'))) :
    records = records' := by
  rcases filled with ⟨flag, kept⟩ | ⟨flag, read⟩
  · rcases filled' with ⟨_, kept'⟩ | ⟨flag', _⟩
    · rw [kept, kept', listed]
    · exact absurd (flag.symm.trans (flags.trans flag')) Bool.noConfusion
  · rcases filled' with ⟨flag', _⟩ | ⟨_, read'⟩
    · exact absurd (flag.symm.trans (flags.trans flag')) Bool.noConfusion
    · rw [planes] at read
      exact congrArg Prod.fst (Except.ok.inj (read.symm.trans read'))

theorem cleared_strips_unlisted (su : Setup F) (d : Digitizer F) (records : List (DigiGEMStrip F)) (st st' : rng.State)
    (read : ((strips su d.clearAll.fDP).mapM (setTreeStrip su d.clearAll.fDP) : Draw rng _) st = .ok (records, st')) :
    ∀ record ∈ records, record.fClusters = [] := by
  intro record member
  obtain ⟨strip, _, readout⟩ := forall₂_mem_right _ _ _ (shows_of_read su d.clearAll.fDP records st st' read) record member
  exact readout.clusters

theorem event_first_clusters (su : Setup F) (d dA : Digitizer F) (events : List (SimEvent F))
    (opened : d.fOTree = some events) (gdata : SimHitData F) (f : Geant4Event F) (evnum : Int) (stE stD stF : rng.State)
    (ran : eventFirst rng su d gdata f evnum stE stD stF = .ok dA) :
    ∃ eA, dA.fOTree = some (events ++ [eA]) ∧
      eA.fGEMClust.length = gdata.fHitData.countP (fun h => (su.accepts h).isSome) := by
  obtain ⟨a1, a2, sE, sD, sF, labelled, digitized, filled⟩ := event_first_steps su d dA gdata f evnum stE stD stF ran
  have set : Ensures (fun _ => True) _ ((d.setTreeEvent su gdata f evnum : Draw rng _) stE) :=
    set_tree_event_ensures su d gdata f evnum stE
  obtain ⟨e, ecal, scint, rfl, _⟩ := ensures_ok _ a1 sE _ set labelled
  have effect : Ensures (fun _ => True) _ ((digitize su { d with fEvent := e } gdata : Draw rng _) stD) :=
    additive_digitize_effect su _ gdata (fun _ => trivial) stD
  obtain ⟨tree, count⟩ := ensures_ok _ a2 sD _ effect digitized
  obtain ⟨records, written, _⟩ := fill_tree_ok su a2 dA stF sF filled
  refine ⟨_, by rw [written, tree, clearAll, opened, Option.map_some], ?_⟩
  simpa [clearAll, SimEvent.clear] using count

theorem digitize_first_clusters (su : Setup F) (d dB : Digitizer F) (events : List (SimEvent F))
    (opened : d.fOTree = some events) (gdata : SimHitData F) (f : Geant4Event F) (evnum : Int) (stE stD stF : rng.State)
    (ran : digitizeFirst rng su d gdata f evnum stE stD stF = .ok dB) :
    ∃ eB, dB.fOTree = some (events ++ [eB]) ∧ eB.fGEMClust = [] := by
  obtain ⟨b1, b2, tD, tE, tF, digitized, labelled, filled⟩ := digitize_first_steps su d dB gdata f evnum stE stD stF ran
  have effect : Ensures (fun _ => True) _ ((digitize su d gdata : Draw rng _) stD) :=
    additive_digitize_effect su _ gdata (fun _ => trivial) stD
  obtain ⟨tree, _⟩ := ensures_ok _ b1 tD _ effect digitized
  have set : Ensures (fun _ => True) _ ((b1.setTreeEvent su gdata f evnum : Draw rng _) stE) :=
    set_tree_event_ensures su b1 gdata f evnum stE
  obtain ⟨e, ecal, scint, rfl, event⟩ := ensures_ok _ b2 tE _ set labelled
  obtain ⟨records, written, _⟩ := fill_tree_ok su _ dB stF tF filled
  refine ⟨{ e with fGEMStrips := records }, ?_, event.clusters⟩
  rw [written, tree, clearAll, opened, Option.map_some]

theorem skipped_orders_agree (su : Setup F) (d dA dB : Digitizer F) (events : List (SimEvent F))
    (opened : d.fOTree = some events) (gdata : SimHitData F) (skipped : ∀ h ∈ gdata.fHitData, su.accepts h = none)
    (f : Geant4Event F) (evnum : Int) (stE stD stF : rng.State)
    (labelledFirst : eventFirst rng su d gdata f evnum stE stD stF = .ok dA)
    (digitizedFirst : digitizeFirst rng su d gdata f evnum stE stD stF = .ok dB) :
    ∃ eA eB, dA.fOTree = some (events ++ [eA]) ∧ dB.fOTree = some (events ++ [eB]) ∧
      SameWritten eA eB ∧ RefsExist eA ∧ RefsExist eB := by
  obtain ⟨a1, a2, sE, sD, sF, labelA, digitizeA, fillA⟩ := event_first_steps su d dA gdata f evnum stE stD stF labelledFirst
  obtain ⟨b1, b2, tD, tE, tF, digitizeB, labelB, fillB⟩ := digitize_first_steps su d dB gdata f evnum stE stD stF digitizedFirst
  have agree := set_tree_event_agree su d b1 gdata f evnum stE
  rw [labelA, labelB] at agree
  obtain ⟨e, e', ecal, scint, rfl, rfl, setA, setB⟩ : ∃ e e' ecal scint, a1 = { d with fEvent := e } ∧
      b2 = { b1 with fEvent := e' } ∧ EventSet f ecal scint e ∧ EventSet f ecal scint e' := by
    cases agree with
    | ok _ _ _ related => exact related
  have skipA : Ensures (fun _ => True) _ ((digitize su { d with fEvent := e } gdata : Draw rng _) stD) :=
    additive_digitize_skipped su _ gdata skipped stD
  have skipB : Ensures (fun _ => True) _ ((digitize su d gdata : Draw rng _) stD) :=
    additive_digitize_skipped su _ gdata skipped stD
  have stateA := ensures_ok _ a2 sD _ skipA digitizeA
  have stateB := ensures_ok _ b1 tD _ skipB digitizeB
  subst stateA stateB
  obtain ⟨recordsA, writtenA, filledA⟩ := fill_tree_ok su _ dA stF sF fillA
  obtain ⟨recordsB, writtenB, filledB⟩ := fill_tree_ok su _ dB stF tF fillB
  have same_strips : recordsA = recordsB := by
    refine fill_tree_records su _ _ ?_ ?_ ?_ stF sF tF _ _ filledA filledB
    · rfl
    · rfl
    · exact setB.strips.symm
  have unlisted : ∀ record ∈ recordsA, record.fClusters = [] := by
    rcases filledA with ⟨_, keptA⟩ | ⟨_, readA⟩
    · rw [keptA]
      exact fun record member => absurd member List.not_mem_nil
    · exact cleared_strips_unlisted su d recordsA stF sF readA
  refine ⟨_, _, by rw [writtenA, clearAll, opened, Option.map_some], by rw [writtenB, clearAll, opened, Option.map_some],
    ⟨setB.clusters.symm, same_strips, setB.signal.symm, ?_, ?_, ?_⟩, ?_, ?_⟩
  · exact setA.tracks.trans setB.tracks.symm
  · exact setA.ecal.trans setB.ecal.symm
  · exact setA.scint.trans setB.scint.symm
  · intro record member id listed
    rw [unlisted record member] at listed
    exact absurd listed List.not_mem_nil
  · intro record member id listed
    rw [unlisted record (by rw [same_strips]; exact member)] at listed
    exact absurd listed List.not_mem_nil

-- The class comment allows SetTreeEvent before or after Digitize. The written
-- events are the same, with all references in place, exactly when every hit
-- is skipped.
theorem event_orders_agree_iff (rng : Rng F) (su : Setup F) (d dA dB : Digitizer F) (events : List (SimEvent F))
    (opened : d.fOTree = some events) (gdata : SimHitData F) (f : Geant4Event F) (evnum : Int) (stE stD stF : rng.State)
    (labelledFirst : eventFirst rng su d gdata f evnum stE stD stF = .ok dA)
    (digitizedFirst : digitizeFirst rng su d gdata f evnum stE stD stF = .ok dB) :
    ∃ eA eB, dA.fOTree = some (events ++ [eA]) ∧ dB.fOTree = some (events ++ [eB]) ∧
      (SameWritten eA eB ∧ RefsExist eA ∧ RefsExist eB ↔ ∀ h ∈ gdata.fHitData, su.accepts h = none) := by
  obtain ⟨eA, treeA, count⟩ := event_first_clusters su d dA events opened gdata f evnum stE stD stF labelledFirst
  obtain ⟨eB, treeB, empty⟩ := digitize_first_clusters su d dB events opened gdata f evnum stE stD stF digitizedFirst
  refine ⟨eA, eB, treeA, treeB, ?_⟩
  constructor
  · rintro ⟨same, _, _⟩ h member
    rw [same.clusters, empty] at count
    simpa using List.countP_eq_zero.mp count.symm h member
  · intro skipped
    obtain ⟨eA', eB', treeA', treeB', agree⟩ := skipped_orders_agree su d dA dB events opened gdata skipped f evnum
      stE stD stF labelledFirst digitizedFirst
    rw [treeA] at treeA'
    rw [treeB] at treeB'
    have sameA := List.append_cancel_left (Option.some.inj treeA')
    have sameB := List.append_cancel_left (Option.some.inj treeB')
    cases sameA
    cases sameB
    exact agree

theorem event_orders_agree_iff_no_hits :
    let d := Digitizer.new (bench 1 1) unwritten (some [])
    let gdata : SimHitData ℝ := ⟨0, 0, 0, []⟩
    ∃ dA dB, eventFirst (Rng.scripted ℝ) (bench 1 1) d gdata ⟨[], [], []⟩ (-1) [] [] [] = .ok dA ∧
      digitizeFirst (Rng.scripted ℝ) (bench 1 1) d gdata ⟨[], [], []⟩ (-1) [] [] [] = .ok dB ∧
      ∃ eA eB, dA.fOTree = some ([] ++ [eA]) ∧ dB.fOTree = some ([] ++ [eB]) ∧
        (SameWritten eA eB ∧ RefsExist eA ∧ RefsExist eB ↔ ∀ h ∈ gdata.fHitData, (bench 1 1).accepts h = none) :=
  ⟨_, _, rfl, rfl, event_orders_agree_iff (Rng.scripted ℝ) (bench 1 1) _ _ _ [] rfl ⟨0, 0, 0, []⟩ ⟨[], [], []⟩ (-1) [] [] []
    rfl rfl⟩

-- One accepted hit, without ions: written with its cluster when SetTreeEvent
-- comes first, without it when Digitize does.
theorem orders_differ_one_hit :
    ∃ dA dB eA eB, eventFirst (Rng.scripted ℝ) (bench 1 1) (Digitizer.new (bench 1 1) unwritten (some [])) crossingData
        ⟨[], [], []⟩ (-1) [] [] [] = .ok dA ∧
      digitizeFirst (Rng.scripted ℝ) (bench 1 1) (Digitizer.new (bench 1 1) unwritten (some [])) crossingData
        ⟨[], [], []⟩ (-1) [] [] [] = .ok dB ∧
      dA.fOTree = some [eA] ∧ dB.fOTree = some [eB] ∧ ¬ (SameWritten eA eB ∧ RefsExist eA ∧ RefsExist eB) := by
  have label : ∀ d : Digitizer ℝ, ∃ st e, (d.setTreeEvent (bench 1 1) crossingData ⟨[], [], []⟩ (-1) :
      Draw (Rng.scripted ℝ) _) [] = .ok ({ d with fEvent := e }, st) := by
    intro d
    obtain ⟨d', st, labelled, e, ecal, scint, rfl, _⟩ :=
      ensures_total _ _ (set_tree_event_ensures (bench 1 1) d crossingData ⟨[], [], []⟩ (-1) _)
    exact ⟨st, e, labelled⟩
  have fill : ∀ d : Digitizer ℝ, d.fDP = (bench 1 1).freshPlane → ∃ d' st,
      (d.fillTree (bench 1 1) : Draw (Rng.scripted ℝ) _) [] = .ok (d', st) := by
    intro d fresh
    refine fill_tree_total (Rng.scripted ℝ) (bench 1 1) d (fun ic _ ip => ?_) []
    rw [fresh, bench_strips 1 1 (by decide)]
    split <;> omega
  let start := Digitizer.new (bench 1 1) unwritten (some [])
  obtain ⟨sE, e, labelA⟩ := label start
  obtain ⟨a2, digitizeA, freshA⟩ : ∃ a2, (digitize (bench 1 1) { start with fEvent := e } crossingData :
      Draw (Rng.scripted ℝ) _) [] = .ok (a2, []) ∧ a2.fDP = (bench 1 1).freshPlane := ⟨_, bench_no_ion 1 1 _ rfl [] rfl, rfl⟩
  obtain ⟨dA, sA, fillA⟩ := fill a2 freshA
  obtain ⟨b1, digitizeB, freshB⟩ : ∃ b1, (digitize (bench 1 1) start crossingData :
      Draw (Rng.scripted ℝ) _) [] = .ok (b1, []) ∧ b1.fDP = (bench 1 1).freshPlane := ⟨_, bench_no_ion 1 1 _ rfl [] rfl, rfl⟩
  obtain ⟨tE, e', labelB⟩ := label b1
  obtain ⟨dB, sB, fillB⟩ := fill { b1 with fEvent := e' } freshB
  have ranA : eventFirst (Rng.scripted ℝ) (bench 1 1) start crossingData ⟨[], [], []⟩ (-1) [] [] [] = .ok dA :=
    (except_bind_ok _ _ _).mpr ⟨_, labelA, (except_bind_ok _ _ _).mpr ⟨_, digitizeA, (except_bind_ok _ _ _).mpr ⟨_, fillA, rfl⟩⟩⟩
  have ranB : digitizeFirst (Rng.scripted ℝ) (bench 1 1) start crossingData ⟨[], [], []⟩ (-1) [] [] [] = .ok dB :=
    (except_bind_ok _ _ _).mpr ⟨_, digitizeB, (except_bind_ok _ _ _).mpr ⟨_, labelB, (except_bind_ok _ _ _).mpr ⟨_, fillB, rfl⟩⟩⟩
  obtain ⟨eA, treeA, count⟩ := event_first_clusters _ start dA [] rfl _ _ _ _ _ _ ranA
  obtain ⟨eB, treeB, empty⟩ := digitize_first_clusters _ start dB [] rfl _ _ _ _ _ _ ranB
  refine ⟨dA, dB, eA, eB, ranA, ranB, treeA, treeB, ?_⟩
  rintro ⟨same, _, _⟩
  rw [same.clusters, empty] at count
  simp [crossingData, bench_accepts] at count

end Solgem
