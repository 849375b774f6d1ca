import Solgem.Digitization
import Solgem.Lib.Outcome

set_option autoImplicit false

namespace Solgem

open Lib

variable {F : Type}

def GenData.track (gd : GenData F) : SimTrack F :=
  ⟨gd.fTRID, gd.fPID, gd.fV, gd.fP, gd.fVertexAtTarget, gd.fMomentumAtTarget⟩

theorem add_tracks (gds : List (GenData F)) (e : SimEvent F) :
    gds.foldl (fun (e : SimEvent F) gd =>
        e.addTrack gd.fTRID gd.fPID gd.fV gd.fP gd.fVertexAtTarget gd.fMomentumAtTarget) e =
      { e with fMCTracks := e.fMCTracks ++ gds.map GenData.track } := by
  induction gds generalizing e with
  | nil => simp
  | cons gd rest ih =>
      rw [List.foldl_cons, ih]
      simp [SimEvent.addTrack, GenData.track]

variable [Arith F] {rng : Rng F} {fails : Fault → Prop}

namespace Digitizer

-- What SetTreeEvent leaves of the event, whatever was in it before.
structure EventSet (f : Geant4Event F) (ecal : List (ECalCluster F)) (scint : List (ScintCluster F)) (e : SimEvent F) :
    Prop where
  signal : e.fNSignal = 0
  clusters : e.fGEMClust = []
  strips : e.fGEMStrips = []
  tracks : e.fMCTracks = f.fg4sbsGenData.map GenData.track
  ecal : e.fECalClusters = ecal
  scint : e.fScintClusters = scint

-- Two digitizers draw the same calorimeter clusters, and neither loses more
-- than its event.
theorem set_tree_event_agree (su : Setup F) (d d' : Digitizer F) (tsgd : SimHitData F) (f : Geant4Event F) (evnum : Int)
    (st : rng.State) :
    Agree (fun a b => ∃ e e' ecal scint, a = { d with fEvent := e } ∧ b = { d' with fEvent := e' } ∧
        EventSet f ecal scint e ∧ EventSet f ecal scint e')
      ((d.setTreeEvent su tsgd f evnum : Draw rng _) st) ((d'.setTreeEvent su tsgd f evnum : Draw rng _) st) := by
  refine agree_bind Eq _ _ _ _ _ st (agree_refl Eq (fun _ => rfl) _) ?_
  rintro ecal _ st1 rfl
  refine agree_bind Eq _ _ _ _ _ st1 (agree_refl Eq (fun _ => rfl) _) ?_
  rintro scint _ st2 rfl
  refine Agree.ok _ _ st2 ⟨_, _, ecal, scint, rfl, rfl, ?_, ?_⟩ <;> rw [add_tracks] <;> exact ⟨rfl, rfl, rfl, rfl, rfl, rfl⟩

theorem set_tree_event_ensures (su : Setup F) (d : Digitizer F) (tsgd : SimHitData F) (f : Geant4Event F) (evnum : Int)
    (st : rng.State) :
    Ensures fails (fun d' _ => ∃ e ecal scint, d' = { d with fEvent := e } ∧ EventSet f ecal scint e)
      ((d.setTreeEvent su tsgd f evnum : Draw rng _) st) := by
  have timed : ∀ s, Ensures fails (fun _ _ => True) ((drawClusterTime su tsgd.fSource : Draw rng F) s) := by
    intro s
    rw [drawClusterTime]
    split
    · exact trivial
    · exact ensures_bind (fun _ _ => True) _ _ _ s trivial fun _ s' _ =>
        ensures_bind (fun _ _ => True) _ _ _ s' trivial fun _ _ _ => trivial
  refine ensures_bind (fun _ _ => True) _ _ _ st ?_ fun ecal st1 _ => ?_
  · refine ensures_mono (fun bs _ => List.Forall₂ (fun _ _ => True) f.fECalClusters bs) _ (fun _ _ _ => trivial) _
      (ensures_mapM _ (fun _ _ => True) _ (fun clus _ s => ?_) st)
    exact ensures_bind (fun _ _ => True) _ _ _ s (timed s) fun _ s' _ => ensures_pure _ _ s' trivial
  refine ensures_bind (fun _ _ => True) _ _ _ st1 ?_ fun scint st2 _ => ?_
  · refine ensures_mono (fun bs _ => List.Forall₂ (fun _ _ => True) f.fScintClusters bs) _ (fun _ _ _ => trivial) _
      (ensures_mapM _ (fun _ _ => True) _ (fun clus _ s => ?_) st1)
    exact ensures_bind (fun _ _ => True) _ _ _ s (timed s) fun _ s' _ => ensures_pure _ _ s' trivial
  · refine ⟨_, ecal, scint, rfl, ?_⟩
    rw [add_tracks]
    exact ⟨rfl, rfl, rfl, rfl, rfl, rfl⟩

end Digitizer

end Solgem
