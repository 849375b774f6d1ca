import Solgem.Optics
import Solgem.TrackFit

set_option autoImplicit false

namespace Solgem

open Lib

-- The answers of the decoder library to loadData: it may store a sample, pass
-- over it with a warning, or refuse it.
inductive SlotAnswer where
  | SD_OK
  | SD_WARN
  | SD_ERR
deriving DecidableEq

structure SlotData where
  address : RocAddress
  dat : Int
  raw : Int

-- The crateslot array of the decoder library: empty, as clearEvent leaves it,
-- with loadData, and the data a channel reads back.
structure CrateSlots (S : Type) where
  cleared : S
  loadData : S → SlotData → SlotAnswer × S
  channel : S → RocAddress → List (Int × Int)

def CrateSlots.load {S : Type} (lib : CrateSlots S) (s : S) (d : SlotData) : Except S S :=
  match lib.loadData s d with
  | (.SD_ERR, s) => .error s
  | (_, s) => .ok s

-- The differences to the point before are none where the constructor's values
-- stay.
structure TrackPoint (F : Type) extends MCTrackPoint F where
  fDeltaE : Option F
  fDeflect : Option F
  fToF : Option F

-- What the decoder holds of an event. fNHits and fHitBits belong to its first
-- track.
structure DecodedEvent (F S : Type) where
  event_num : Int
  fWeight : F
  crateslot : S
  fStripMap : List (Int × Nat)
  fMCTracks : List (SimTrack F)
  fMCHits : List (GEMCluster F)
  fMCPoints : List (TrackPoint F)
  fNHits : Option Int
  fHitBits : Option (BitVec 32)
  fBackTracks : List (SimBackTrack F)

-- The database, and what the decoder takes from outside: the particle masses,
-- the order of the track points, the logarithm, the matrix inversion, and the
-- bits of a Float_t.
structure DecoderSetup (F S : Type) where
  manager : DBManager F
  slots : SlotLayout
  lib : CrateSlots S
  fgDoCalo : Bool
  fCaloThr : F
  fgZ0 : F
  optics : Option (Optics F)
  shower : ShowerTables F
  mass : Int → Option F
  sort : List (MCTrackPoint F) → List (MCTrackPoint F)
  log : F → F
  invert : (Fin 4 → Fin 4 → F) → Fin 4 → Fin 4 → F
  bits : F → Int

-- The ways DoLoadEvent ends early. An assert that fails and an index out of
-- range leave nothing that is defined.
inductive LoadStop (D : Type) where
  | hedErr (d : D)
  | hedFatal (d : D)
  | undefined

def plainPoint {F : Type} (pt : MCTrackPoint F) : TrackPoint F := ⟨pt, none, none, none⟩

section
variable {F S : Type}

def stripLoads (address : RocAddress) (strip : DigiGEMStrip F) : List SlotData :=
  (strip.fADC.take strip.fNsamp).map (fun raw => ⟨address, raw, raw⟩)

def addStrip (su : DecoderSetup F S) (d : DecodedEvent F S) (entry : DigiGEMStrip F × Nat) :
    Except (LoadStop (DecodedEvent F S)) (DecodedEvent F S) :=
  let (s, i) := entry
  match stripToROCD su.manager su.slots s.fPlane s.fModule s.fProj s.fChan with
  | none => .error .undefined
  | some address =>
      match (stripLoads address s).foldlM su.lib.load d.crateslot with
      | .error crateslot => .error (.hedErr { d with crateslot := crateslot })
      | .ok crateslot =>
          match insertNew d.fStripMap (makeROCKey su.manager su.slots address) i with
          | none => .error .undefined
          | some fStripMap => .ok { d with crateslot := crateslot, fStripMap := fStripMap }

-- The cluster loop, with what it has done so far where it gives up.
def tryCluster (nchamber itrack : Int) (s : PrimaryTrack F) (entry : GEMCluster F × Nat) : Except (PrimaryTrack F) (PrimaryTrack F) :=
  match s.addCluster nchamber itrack entry with
  | none => .error s
  | some next => .ok next

def addClusters (nchamber itrack : Int) (fGEMClust : List (GEMCluster F)) : Except (PrimaryTrack F) (PrimaryTrack F) :=
  fGEMClust.zipIdx.foldlM (tryCluster nchamber itrack) (PrimaryTrack.start nchamber)

variable [Libm F]

-- TVector3::Angle.
def V3.angle (a b : V3 F) : F :=
  let ptot2 := a.dot a * b.dot b
  if ptot2 ≤ 0.0 then 0.0
  else
    let arg := a.dot b / Arith.sqrt ptot2
    Libm.acos (if 1.0 < arg then 1.0 else if arg < -1.0 then -1.0 else arg)

def MCTrackPoint.energy (mass : F) (pt : MCTrackPoint F) : F := Arith.sqrt (pt.fMCP.dot pt.fMCP + mass * mass)

def pointDifference (mass : F) (prev : Option (MCTrackPoint F)) (pt : MCTrackPoint F) : TrackPoint F :=
  match prev with
  | none => plainPoint pt
  | some prev =>
      if prev.fType = pt.fType ∧ prev.fPlane + 1 = pt.fPlane then
        ⟨pt, some (prev.energy mass - pt.energy mass), some (prev.fMCP.angle pt.fMCP), some (pt.fMCTime - prev.fMCTime)⟩
      else plainPoint pt

-- The loop over the sorted points. Neighbours of one type are asserted to be
-- of one track.
def pointDifferences (mass : F) : Option (MCTrackPoint F) → List (MCTrackPoint F) → Option (List (TrackPoint F))
  | _, [] => some []
  | prev, pt :: rest =>
      if prev.elim true (fun prev => decide (prev.fType = pt.fType → pt.fMCTrack = prev.fMCTrack)) then
        (pointDifferences mass (some pt) rest).map (pointDifference mass prev pt :: ·)
      else none

end

-- The calorimeter branch.
section
variable {F S : Type} [Libm F]

def Ltgt : F := 0.4
def vz_bin_width : F := 3.0 * 0.0064

-- The bins are tried from the left; a vertex outside of them all stays.
def findVertexBin (vz_true : F) : F :=
  let Ntgtbins := nint (Arith.ceil (Ltgt / vz_bin_width : F))
  let minbin := -vz_bin_width * Arith.ofInt Ntgtbins / 2.0
  let inBin (i : Nat) : Bool := decide (minbin + Arith.ofInt i * vz_bin_width ≤ vz_true ∧
    vz_true ≤ minbin + Arith.ofInt (i + 1) * vz_bin_width)
  match (List.range Ntgtbins.toNat).find? inBin with
  | some i => minbin + (Arith.ofInt i + 0.5) * vz_bin_width
  | none => vz_true

def z_earm : List F := [4.5, 4.08, 4.13]
def yoff_ECAL : F := 0.0077
def sigx_ECAL : F := 0.008
def sigy_ECAL : F := 0.006
def Lx_scint_CDET : F := 0.51
def sigy_CDET : F := 0.003

-- The points of the electron track, and the track fitted last. The vectors
-- are filled from one cluster to the next without being cleared.
structure ElectronPoints (F : Type) where
  points : List (FitPoint F)
  track : FitLine F

-- The scintillator hits, in the planes that z_earm lists. None in the outer
-- option stands for HED_ERR, none in the inner for an index out of range.
def addScint (points : List (FitPoint F)) (h : ScintCluster F) : Option (Option (List (FitPoint F))) :=
  if h.fDetFlag ≠ 31 ∨ h.fEnergy ≤ 0.0 then none
  else if h.fPlane < 0 then some none
  else some ((z_earm[h.fPlane.toNat]?).map (fun z =>
    points ++ [⟨h.fXPos, h.fYPos - yoff_ECAL, z, Libm.pow Lx_scint_CDET (-2.0), Libm.pow sigy_CDET (-2.0)⟩]))

def addScints : List (FitPoint F) → List (ScintCluster F) → Option (Option (List (FitPoint F)))
  | points, [] => some (some points)
  | points, h :: rest =>
      match addScint points h with
      | none => none
      | some none => some none
      | some (some points) => addScints points rest

def caloLoads (su : DecoderSetup F S) (addresses : List RocAddress) (x y : F) : List SlotData :=
  addresses.map (fun a => ⟨a, su.bits (Arith.single x), su.bits (Arith.single y)⟩)

-- The channels the hadron calorimeter, the focal plane and the second plane
-- behind it are loaded into.
def hcalChannels : List RocAddress := [⟨2, 0, 0⟩, ⟨2, 1, 0⟩]
def focalChannels : List RocAddress := [⟨4, 0, 0⟩, ⟨4, 0, 1⟩]
def secondChannels : List RocAddress := [⟨4, 0, 2⟩, ⟨4, 0, 3⟩]

def loadCalo (su : DecoderSetup F S) (d : DecodedEvent F S) (loads : List SlotData) :
    Except (LoadStop (DecodedEvent F S)) (DecodedEvent F S) :=
  match loads.foldlM su.lib.load d.crateslot with
  | .error crateslot => .error (.hedErr { d with crateslot := crateslot })
  | .ok crateslot => .ok { d with crateslot := crateslot }

-- The focal plane the electron of an accepted cluster predicts.
def electronFocalPlane (su : DecoderSetup F S) (vz : F) (line : FitLine F) : Option (FocalPlane F) :=
  su.optics.map (fun o => o.focalPlane (targetTrack vz (recoilProton (ehatFinalGlobal line.Xp line.Yp))))

def electronCluster (su : DecoderSetup F S) (fScintClusters : List (ScintCluster F)) (vz : F) (c : ECalCluster F)
    (acc : DecodedEvent F S × ElectronPoints F) : Except (LoadStop (DecodedEvent F S)) (DecodedEvent F S × ElectronPoints F) :=
  let (d, v) := acc
  let xmom := (c.fXPos - c.fXMax) / ECAL_max_cell_size
  let ymom := (c.fYPos - c.fYMax) / ECAL_max_cell_size
  match calcShowerCoordinates su.log su.shower xmom ymom c.fXMax c.fYMax c.fEnergy 4.5 with
  | none => .error .undefined
  | some (xECal, yECal) =>
      let vertex_ECAL := ECALAxes.components ⟨0.0, 0.0, vz⟩
      let weight := Libm.pow 0.001 (-2.0)
      match addScints (v.points ++ [⟨vertex_ECAL.x, vertex_ECAL.y, vertex_ECAL.z, weight, weight⟩]) fScintClusters with
      | none => .error (.hedErr d)
      | some none => .error .undefined
      | some (some points) =>
          let points := points ++ [⟨xECal, yECal - yoff_ECAL, 4.5, Libm.pow sigx_ECAL (-2.0), Libm.pow sigy_ECAL (-2.0)⟩]
          match fitOf su.invert points v.track with
          | none => .error .undefined
          | some line =>
              match electronFocalPlane su vz line with
              | none => .error .undefined
              | some fp => do
                  let d ← loadCalo su d (caloLoads su focalChannels fp.xfp fp.yfp)
                  let d ← loadCalo su d (caloLoads su secondChannels (fp.xfp + 0.48191 * fp.xpfp) (fp.yfp + 0.48191 * fp.ypfp))
                  .ok (d, ⟨points, line⟩)

-- One pass of the loop over the clusters; the flag tells the calorimeters
-- apart.
def caloCluster (su : DecoderSetup F S) (fScintClusters : List (ScintCluster F)) (vz : F)
    (acc : DecodedEvent F S × ElectronPoints F) (c : ECalCluster F) :
    Except (LoadStop (DecodedEvent F S)) (DecodedEvent F S × ElectronPoints F) :=
  if c.fDetFlag = 10 ∧ su.fCaloThr ≤ c.fEnergy then do
    let d ← loadCalo su acc.1 (caloLoads su hcalChannels c.fXPos c.fYPos)
    .ok (d, acc.2)
  else if c.fDetFlag = 12 ∧ su.fCaloThr ≤ c.fEnergy then electronCluster su fScintClusters vz c acc
  else .ok acc

def caloEvent (su : DecoderSetup F S) (simEvent : SimEvent F) (trk : SimTrack F) (d : DecodedEvent F S) :
    Except (LoadStop (DecodedEvent F S)) (DecodedEvent F S) := do
  let vz := findVertexBin trk.vertex_target.z
  let done ← simEvent.fECalClusters.foldlM (caloCluster su simEvent.fScintClusters vz) (d, ⟨[], ⟨0.0, 0.0, 0.0, 0.0⟩⟩)
  .ok done.1

-- The back track of the primary hit closest to plane 0.
def backTracks (su : DecoderSetup F S) (fGEMClust : List (GEMCluster F)) (s : PrimaryTrack F) : Option (List (SimBackTrack F)) :=
  if 0 ≤ s.best_primary then
    (fGEMClust[s.best_primary.toNat]?).map (fun c =>
      [{ SimBackTrack.ofCluster su.fgZ0 c with fHitBits := s.primary_hitbits, fUfailBits := s.ufail, fVfailBits := s.vfail }])
  else some []

-- Everything after the cluster loop.
def finishEvent (su : DecoderSetup F S) (simEvent : SimEvent F) (trk : SimTrack F) (s : PrimaryTrack F) (d : DecodedEvent F S) :
    Except (LoadStop (DecodedEvent F S)) (DecodedEvent F S) :=
  match pointDifferences ((su.mass trk.fPID).getD 0.0) none (su.sort s.fMCPoints), backTracks su simEvent.fGEMClust s with
  | some fMCPoints, some fBackTracks =>
      let d := { d with
        fMCHits := s.fMCHits
        fMCPoints := fMCPoints
        fNHits := some (2 * numberOfSetBits s.primary_hitbits)
        fHitBits := some s.primary_hitbits
        fBackTracks := fBackTracks }
      if 0 ≤ s.best_primary ∧ su.fgDoCalo = true then caloEvent su simEvent trk d else .ok d
  | _, _ => .error .undefined

def DecodedEvent.cleared (su : DecoderSetup F S) (simEvent : SimEvent F) : DecodedEvent F S where
  event_num := simEvent.fEvtID
  fWeight := simEvent.fWeight
  crateslot := su.lib.cleared
  fStripMap := []
  fMCTracks := []
  fMCHits := []
  fMCPoints := []
  fNHits := none
  fHitBits := none
  fBackTracks := []

def eventEnergy (simEvent : SimEvent F) : F := (simEvent.fECalClusters.head?).elim 0.0 ECalCluster.fEnergy

def tooSoft (su : DecoderSetup F S) (simEvent : SimEvent F) : Prop :=
  su.fgDoCalo = true ∧ Arith.abs (eventEnergy simEvent) < su.fCaloThr

instance (su : DecoderSetup F S) (simEvent : SimEvent F) : Decidable (tooSoft su simEvent) := instDecidableAnd

def doLoadEvent (su : DecoderSetup F S) (simEvent : SimEvent F) : Except (LoadStop (DecodedEvent F S)) (DecodedEvent F S) := do
  let d ← simEvent.fGEMStrips.zipIdx.foldlM (addStrip su) (DecodedEvent.cleared su simEvent)
  if tooSoft su simEvent then .error (.hedErr d)
  else
    let d := { d with fMCTracks := simEvent.fMCTracks }
    match simEvent.fMCTracks with
    | [] => .error .undefined
    | trk :: _ =>
        match addClusters su.manager.fNChamber trk.fNumber simEvent.fGEMClust with
        | .error s => .error (.hedFatal { d with fMCHits := s.fMCHits, fMCPoints := s.fMCPoints.map plainPoint })
        | .ok s => finishEvent su simEvent trk s d

end

end Solgem
