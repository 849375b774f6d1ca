import Solgem.AvaModel
import Solgem.DBManager
import Solgem.DigitizedPlane
import Solgem.SimEvent

set_option autoImplicit false

namespace Solgem

open Lib

variable {F : Type} [Arith F] {rng : Rng F}

-- TSBSGEMSimHitData::GEMHitData_t, with the fields the digitization reads.
structure GEMHitData (F : Type) where
  fGem : Nat
  fPlane : Nat
  fModule : Nat
  fEdep : F
  fTime : F
  fType : Nat
  fTRID : Nat
  fPID : Int
  fXi : V3 F
  fXo : V3 F
  fMom : V3 F
  fVert : V3 F

structure SimHitData (F : Type) where
  fRunID : Nat
  fEvtID : Nat
  fSource : Int
  fHitData : List (GEMHitData F)

-- g4sbsgendata, as its accessors return it.
structure GenData (F : Type) where
  fTRID : Int
  fPID : Int
  fP : V3 F
  fV : V3 F
  fMomentumAtTarget : V3 F
  fVertexAtTarget : V3 F
  fWeight : F

structure Geant4Event (F : Type) where
  fg4sbsGenData : List (GenData F)
  fECalClusters : List (ECalCluster F)
  fScintClusters : List (ScintCluster F)

structure Setup (F : Type) where
  par : Params F
  ct : CrossTalk F
  spec : List (GEMChamber F)
  manager : DBManager F

def Setup.fNChambers (su : Setup F) : Nat := su.spec.length

structure Digitizer (F : Type) where
  fDP : Nat → Fin 2 → DigitizedPlane F
  fdh : Option (Fin 2 → GEMHit F)
  ion : IonState F
  fEvent : SimEvent F
  fFilledStrips : Bool
  fDoMapSector : Bool
  fSignalSector : Int
  -- The events written so far; none when no tree was opened.
  fOTree : Option (List (SimEvent F))

-- The plane Initialize makes for one readout coordinate of a chamber.
def Setup.freshPlane (su : Setup F) (ic : Nat) (ip : Fin 2) : DigitizedPlane F :=
  DigitizedPlane.new ((su.spec[ic]?).elim 0 (fun ch => (ch.fPlanes ip).fNStrips)) su.par.fEleSamplingPoints 0

-- TSBSSimGEMDigitization after Initialize. IonModel's other members are not
-- initialised, so they come with whatever values they have.
def Digitizer.new (su : Setup F) (ion : IonState F) (fOTree : Option (List (SimEvent F))) : Digitizer F where
  fDP := su.freshPlane
  fdh := none
  ion := { ion with fRNIon := 0 }
  fEvent := SimEvent.new
  fFilledStrips := true
  fDoMapSector := false
  fSignalSector := 0
  fOTree := fOTree

namespace Setup

-- A hit is skipped when its chamber does not exist or its track segment is
-- more than 50 mm long in x or y.
def accepts (su : Setup F) (h : GEMHitData F) : Option (GEMChamber F) :=
  match su.spec[h.fGem]? with
  | none => none
  | some ch =>
      if 50.0 < Arith.abs (h.fXi.x - h.fXo.x) ∨ 50.0 < Arith.abs (h.fXi.y - h.fXo.y) then none else some ch

-- Background hits get a random time, signal hits their own.
def drawEventTime (su : Setup F) (fSource : Int) (h : GEMHitData F) : Draw rng F :=
  if fSource ≠ 0 then do
    let t ← drawUniform .trnd (-su.par.fGateWidth + 2.0 * su.par.fEleSamplingPeriod) (8.0 * su.par.fEleSamplingPeriod)
    pure (Arith.single t)
  else pure (Arith.single h.fTime)

def timeZero (event_time offset fRTime0 trigger_jitter : F) : F :=
  Arith.single (event_time - offset + fRTime0 * 1e9 - trigger_jitter)

def itype (h : GEMHitData F) : Nat := if h.fType = 1 then 1 else 2

-- The cluster SetTreeHit records, the size-th of the event.
def treeHit (su : Setup F) (fSource : Int) (h : GEMHitData F) (ch : GEMChamber F) (fdh : Option (Fin 2 → GEMHit F))
    (size : Nat) (t0 : F) : GEMCluster F :=
  let center := (h.fXi.add h.fXo).smul 5e-1
  let hitpos := center.smul 1.0e-3
  let fSize := fun ip => fdh.elim 0 (fun vv => (vv ip).fSize)
  { fID := toInt16 (size + 1)
    fSector := 0
    fPlane := toInt16 (su.manager.getPlaneID h.fGem)
    fModule := toInt16 (su.manager.getModuleID h.fGem)
    fRealSector := none
    fSource := fSource
    fType := toInt32 h.fType
    fTRID := toInt32 h.fTRID
    fPID := h.fPID
    fP := (ch.specToLab h.fMom).smul 1.0e-3
    fPspec := h.fMom.smul 1e-3
    fXEntry := h.fXi.smul 1e-3
    fMCpos := (ch.planeToSpec center).smul 1.0e-3
    fHitpos := hitpos
    fCharge := Arith.single h.fEdep
    fTime := Arith.single t0
    fSize := fSize
    fStart := fun ip => fdh.elim 0 (fun vv => if 0 < fSize ip then (vv ip).getIdx 0 else -1)
    fXProj := fun ip => Arith.single (hitpos.rotateZ (-(ch.fPlanes ip).fSAngle)).x
    fVertex := h.fVert.smul 1e-3 }

end Setup

-- push_back of the recorded cluster, and the count of signal clusters.
def SimEvent.recordHit (e : SimEvent F) (cluster : GEMCluster F) : SimEvent F :=
  { e with
    fGEMClust := e.fGEMClust ++ [cluster]
    fNSignal := if cluster.fType = 1 ∧ cluster.fSource = 0 then e.fNSignal + 1 else e.fNSignal }

namespace Digitizer

def setTreeHit (su : Setup F) (fSource : Int) (d : Digitizer F) (h : GEMHitData F) (ch : GEMChamber F) (t0 : F) :
    Digitizer F × Int :=
  let cluster := su.treeHit fSource h ch d.fdh d.fEvent.fGEMClust.length t0
  ({ d with fEvent := d.fEvent.recordHit cluster }, cluster.fID)

def updatePlane (d : Digitizer F) (ic : Nat) (ip : Fin 2) (p : DigitizedPlane F) : Digitizer F :=
  { d with fDP := Function.update d.fDP ic (Function.update (d.fDP ic) ip p) }

-- Both planes of the chamber take the avalanche, then fdh is released.
def cumulateHit (su : Setup F) (d : Digitizer F) (h : GEMHitData F) (id : Int) : Draw rng (Digitizer F) :=
  match d.fdh with
  | none => pure d
  | some vv => do
      let first ← (d.fDP h.fGem 0).cumulate su.ct (.ran h.fGem 0) (vv 0) (Setup.itype h) id
      let second ← (d.fDP h.fGem 1).cumulate su.ct (.ran h.fGem 1) (vv 1) (Setup.itype h) id
      pure { (d.updatePlane h.fGem 0 first).updatePlane h.fGem 1 second with fdh := none }

-- AvaModel is called for a hit with ions only; otherwise fdh stays.
def avalanche (su : Setup F) (d : Digitizer F) (h : GEMHitData F) (ch : GEMChamber F) (t0 : F) :
    Except Fault (Option (Fin 2 → GEMHit F)) :=
  if 0 < d.ion.fRNIon then avaModel su.par d.ion ch h.fXi h.fXo t0 else .ok d.fdh

def digitizeAccepted (su : Setup F) (fSource : Int) (trigger_jitter : F) (d : Digitizer F) (h : GEMHitData F)
    (ch : GEMChamber F) : Draw rng (Digitizer F) := do
  let ion ← ionModel su.par h.fXi h.fXo h.fEdep d.ion
  let event_time ← su.drawEventTime fSource h
  let offset ← lift (check .badAccess su.par.fTriggerOffset[h.fPlane]?)
  let time_zero := Setup.timeZero event_time offset ion.fRTime0 trigger_jitter
  let fdh ← lift ({ d with ion := ion }.avalanche su h ch time_zero)
  let recorded := { d with ion := ion, fdh := fdh }.setTreeHit su fSource h ch time_zero
  recorded.1.cumulateHit su h recorded.2

def digitizeHit (su : Setup F) (fSource : Int) (trigger_jitter : F) (d : Digitizer F) (h : GEMHitData F) :
    Draw rng (Digitizer F) :=
  match su.accepts h with
  | none => pure d
  | some ch => d.digitizeAccepted su fSource trigger_jitter h ch

def additiveDigitize (su : Setup F) (d : Digitizer F) (gdata : SimHitData F) : Draw rng (Digitizer F) :=
  match gdata.fHitData with
  | [] => pure d
  | hits => do
      let trigger_jitter ← drawGaus .trnd 0.0 su.par.fTriggerJitter
      let d ← hits.foldlM (digitizeHit su gdata.fSource trigger_jitter) d
      pure { d with fFilledStrips := false }

def clearAll (d : Digitizer F) : Digitizer F :=
  { d with
    fEvent := d.fEvent.clear
    fSignalSector := 0
    fDP := fun ic ip => (d.fDP ic ip).clear
    fFilledStrips := true }

def digitize (su : Setup F) (d : Digitizer F) (gdata : SimHitData F) : Draw rng (Digitizer F) :=
  d.clearAll.additiveDigitize su gdata

-- The readout of one sample: the pedestal noise is added to the counts.
def readoutADC (adc : Int) (noise : F) : Int :=
  let total := Arith.trunc (Arith.ofInt adc + noise)
  if 4000 < total then 4000 else total

def MC_MAXSAMP : Nat := 10

-- The record of strip istrip. Short_t idx is negative from strip 32768 on.
def setTreeStrip (su : Setup F) (fDP : Nat → Fin 2 → DigitizedPlane F) (strip : Nat × Fin 2 × Nat) :
    Draw rng (DigiGEMStrip F) := do
  let (ich, ip, istrip) := strip
  let p := fDP ich ip
  let idx ← lift (check .badAccess (if istrip < 32768 then some istrip else none))
  let fNsamp := min MC_MAXSAMP p.fNSamples
  let fADC ← (List.range fNsamp).mapM (fun ss => do
    let noise ← drawGaus .trnd 0.0 su.par.fPulseNoiseSigma
    pure (readoutADC (p.getADC idx ss) noise))
  pure
    { fSector := 0
      fPlane := toInt16 (su.manager.getPlaneID ich)
      fModule := toInt16 (su.manager.getModuleID ich)
      fProj := ip.val
      fChan := idx
      fSigType := p.fType idx
      fCharge := p.fCharge idx
      fTime1 := p.fTime idx
      fNsamp := fNsamp
      fADC := fADC
      fClusters := p.fStripClusters idx
      fClusterRatio := (List.range fNsamp).map (fun ss => p.fStripClusterADC ss idx)
      fStripWeightInCluster := p.fStripWeightInCluster idx }

-- The strips in the order of the three loops of SetTreeStrips.
def strips (su : Setup F) (fDP : Nat → Fin 2 → DigitizedPlane F) : List (Nat × Fin 2 × Nat) :=
  (List.range su.fNChambers).flatMap (fun ich =>
    (List.finRange 2).flatMap (fun ip => (List.range (fDP ich ip).fNStrips).map (fun istrip => (ich, ip, istrip))))

def setTreeStrips (su : Setup F) (d : Digitizer F) : Draw rng (Digitizer F) := do
  let fGEMStrips ← (strips su d.fDP).mapM (setTreeStrip su d.fDP)
  pure { d with fEvent := { d.fEvent with fGEMStrips := fGEMStrips }, fFilledStrips := true }

def recordTreeHit (su : Setup F) (fSource : Int) (d : Digitizer F) (h : GEMHitData F) : Digitizer F :=
  match su.spec[h.fGem]? with
  | none => d
  | some ch => (d.setTreeHit su fSource h ch 0.0).1

def noDigitize (su : Setup F) (d : Digitizer F) (gdata : SimHitData F) : Draw rng (Digitizer F) :=
  (gdata.fHitData.foldl (recordTreeHit su gdata.fSource) { d with fEvent := d.fEvent.clear }).setTreeStrips su

def drawClusterTime (su : Setup F) (fSource : Int) : Draw rng F :=
  if fSource = 0 then drawGaus .trnd 0.0 su.par.fTriggerJitter
  else do
    let t ← drawUniform .trnd (-50.0) 50.0
    let jitter ← drawGaus .trnd 0.0 su.par.fTriggerJitter
    pure (t + jitter)

def setTreeEvent (su : Setup F) (d : Digitizer F) (tsgd : SimHitData F) (f : Geant4Event F) (evnum : Int) :
    Draw rng (Digitizer F) := do
  let cleared := { d.fEvent.clearAll with
    fRunID := toInt32 tsgd.fRunID
    fEvtID := if evnum < 0 then toInt32 tsgd.fEvtID else evnum }
  let tracked := f.fg4sbsGenData.foldl (fun (e : SimEvent F) gd =>
    e.addTrack gd.fTRID gd.fPID gd.fV gd.fP gd.fVertexAtTarget gd.fMomentumAtTarget) cleared
  let ecal ← f.fECalClusters.mapM (fun clus => do
    let t ← drawClusterTime su tsgd.fSource
    pure { clus with fTime := t })
  let scint ← f.fScintClusters.mapM (fun clus => do
    let t ← drawClusterTime su tsgd.fSource
    pure { clus with fTime := t })
  pure
    { d with
      fEvent :=
        { tracked with
          fECalClusters := tracked.fECalClusters ++ ecal
          fScintClusters := tracked.fScintClusters ++ scint
          fWeight := (f.fg4sbsGenData.head?).elim tracked.fWeight GenData.fWeight
          fSectorsMapped := d.fDoMapSector
          fSignalSector := d.fSignalSector } }

def writeEvent (d : Digitizer F) : Digitizer F :=
  { d with fOTree := d.fOTree.map (fun events => events ++ [d.fEvent]) }

def fillTree (su : Setup F) (d : Digitizer F) : Draw rng (Digitizer F) := do
  let filled ← if d.fFilledStrips then pure d else d.setTreeStrips su
  pure filled.writeEvent

end Digitizer

-- The public calls that change a digitizer.
inductive Call (F : Type) where
  | digitize (gdata : SimHitData F)
  | additiveDigitize (gdata : SimHitData F)
  | noDigitize (gdata : SimHitData F)
  | setTreeEvent (tsgd : SimHitData F) (f : Geant4Event F) (evnum : Int)
  | setTreeStrips
  | fillTree

def Call.apply (su : Setup F) (d : Digitizer F) : Call F → Draw rng (Digitizer F)
  | digitize gdata => d.digitize su gdata
  | additiveDigitize gdata => d.additiveDigitize su gdata
  | noDigitize gdata => d.noDigitize su gdata
  | setTreeEvent tsgd f evnum => d.setTreeEvent su tsgd f evnum
  | setTreeStrips => d.setTreeStrips su
  | fillTree => d.fillTree su

inductive Reachable (rng : Rng F) (su : Setup F) : Digitizer F → Prop
  | init (ion : IonState F) (fOTree : Option (List (SimEvent F))) : Reachable rng su (Digitizer.new su ion fOTree)
  | call (d d' : Digitizer F) (c : Call F) (st st' : rng.State) :
      Reachable rng su d → (c.apply su d : Draw rng (Digitizer F)) st = .ok (d', st') → Reachable rng su d'

end Solgem
