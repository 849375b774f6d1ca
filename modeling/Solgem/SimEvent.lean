import Solgem.Arith

set_option autoImplicit false

namespace Solgem

variable {F : Type}

-- TSBSSimEvent::GEMCluster. The two-element arrays are functions of the
-- readout projection. An uninitialised member reads none.
structure GEMCluster (F : Type) where
  fID : Int
  fSector : Int
  fPlane : Int
  fModule : Int
  fRealSector : Option Int
  fSource : Int
  fType : Int
  fTRID : Int
  fPID : Int
  fP : V3 F
  fPspec : V3 F
  fXEntry : V3 F
  fMCpos : V3 F
  fHitpos : V3 F
  fCharge : F
  fTime : F
  fSize : Fin 2 → Int
  fStart : Fin 2 → Int
  fXProj : Fin 2 → F
  fVertex : V3 F

-- TSBSSimEvent::DigiGEMStrip, with the fNsamp filled entries of the two
-- sample arrays.
structure DigiGEMStrip (F : Type) where
  fSector : Int
  fPlane : Int
  fModule : Int
  fProj : Int
  fChan : Int
  fSigType : Nat
  fCharge : F
  fTime1 : F
  fNsamp : Nat
  fADC : List Int
  fClusters : List Int
  fClusterRatio : List (List Int)
  fStripWeightInCluster : List F
deriving DecidableEq

structure SimTrack (F : Type) where
  fNumber : Int
  fPID : Int
  fOrigin : V3 F
  fMomentum : V3 F
  vertex_target : V3 F
  momentum_target : V3 F
deriving DecidableEq

structure ECalCluster (F : Type) where
  fEnergy : F
  fXPos : F
  fYPos : F
  fXMax : F
  fYMax : F
  fTime : F
  fDetFlag : Int
deriving DecidableEq

structure ScintCluster (F : Type) extends ECalCluster F where
  fPlane : Int
deriving DecidableEq

-- The members of TSBSSimEvent that a plain Clear leaves alone.
structure EventInfo (F : Type) where
  fRunID : Int
  fEvtID : Int
  fWeight : F
  fMCTracks : List (SimTrack F)
  fSectorsMapped : Bool
  fSignalSector : Int
  fECalClusters : List (ECalCluster F)
  fScintClusters : List (ScintCluster F)

structure SimEvent (F : Type) extends EventInfo F where
  fNSignal : Nat
  fGEMClust : List (GEMCluster F)
  fGEMStrips : List (DigiGEMStrip F)

def SimEvent.clear (e : SimEvent F) : SimEvent F :=
  { e with fNSignal := 0, fGEMClust := [], fGEMStrips := [] }

def SimEvent.clearAll (e : SimEvent F) : SimEvent F :=
  { e.clear with fECalClusters := [], fScintClusters := [], fMCTracks := [] }

def SimEvent.addTrack (e : SimEvent F) (number pid : Int) (vertex momentum vertexAtTarget momentumAtTarget : V3 F) :
    SimEvent F :=
  { e with fMCTracks := e.fMCTracks ++ [⟨number, pid, vertex, momentum, vertexAtTarget, momentumAtTarget⟩] }

-- Every data member of the event after construction with TSBSSimEvent(ntracks).
def SimEvent.new [Arith F] : SimEvent F where
  fRunID := 0
  fEvtID := 0
  fWeight := 1.0
  fMCTracks := []
  fSectorsMapped := false
  fSignalSector := 0
  fECalClusters := []
  fScintClusters := []
  fNSignal := 0
  fGEMClust := []
  fGEMStrips := []

end Solgem
