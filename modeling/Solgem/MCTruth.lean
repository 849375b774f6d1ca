import Solgem.DigitizedPlane
import Solgem.RocMap
import Solgem.Lib.Runs

set_option autoImplicit false

namespace Solgem

open Lib

variable {F : Type}

-- SignalInfo, with the fields the decoder reads.
structure SignalInfo where
  pid : Int
  tid : Int
deriving DecidableEq

-- TSBSMCHitInfo with the members of its base class, which a new object holds
-- as zeros.
structure MCHitInfo (F : Type) where
  fMCTrack : Int
  fMCPos : F
  fMCTime : F
  fContam : Int
  fMCCharge : F
  fSigType : Nat
  vClusterID : List Int
  vClusterType : List Int
  vClusterStripWeight : List F
  vClusterPeakTime : List F
  vClusterPos : List (V3 F)
  vClusterCharge : List F
  vClusterADC : List (List Int)

def kPrimaryType : Int := 1
def kPrimarySource : Int := 0

variable [Arith F]

def MCHitInfo.new : MCHitInfo F where
  fMCTrack := 0
  fMCPos := 0.0
  fMCTime := 0.0
  fContam := 0
  fMCCharge := 0.0
  fSigType := 0
  vClusterID := []
  vClusterType := []
  vClusterStripWeight := []
  vClusterPeakTime := []
  vClusterPos := []
  vClusterCharge := []
  vClusterADC := List.replicate 6 []

-- The truth data of one contributing cluster, entry i of the strip record.
def MCHitInfo.addCluster (mc : MCHitInfo F) (strip : DigiGEMStrip F) (c : GEMCluster F) (iclust : Int) (i : Nat) : MCHitInfo F :=
  { mc with
    vClusterID := mc.vClusterID ++ [iclust]
    vClusterType := mc.vClusterType ++ [c.fSource]
    vClusterPeakTime := mc.vClusterPeakTime ++ [c.fTime]
    vClusterPos := mc.vClusterPos ++ [c.fHitpos]
    vClusterCharge := mc.vClusterCharge ++ [c.fCharge]
    vClusterStripWeight := mc.vClusterStripWeight ++ [arrayAt strip.fStripWeightInCluster 0.0 i]
    vClusterADC := (List.range 6).map (fun its =>
      mc.vClusterADC.getD its [] ++ [arrayAt (strip.fClusterRatio.getD its []) 0 i]) }

-- The last registered particle a primary cluster matches, or -1.
def signalID (fSignalInfo : List SignalInfo) (c : GEMCluster F) : Int :=
  fSignalInfo.zipIdx.foldl (fun signalID info => if c.fType = 1 ∧ c.fPID = info.1.pid then (info.2 : Int) else signalID) (-1)

-- A cluster ID is the array index plus one.
def clusterOf (fGEMClust : List (GEMCluster F)) (id : Int) : Option (GEMCluster F) :=
  if 0 ≤ id - 1 then fGEMClust[(id - 1).toNat]? else none

-- fXProj has one entry for each of the two projections.
def projAt (fXProj : Fin 2 → F) (proj : Int) : Option F :=
  if proj = 0 then some (fXProj 0) else if proj = 1 then some (fXProj 1) else none

def clusterPos (m : DBManager F) (strip : DigiGEMStrip F) (c : GEMCluster F) : Option F :=
  (projAt c.fXProj strip.fProj).bind (fun x =>
    (m.getXOffset c.fPlane c.fModule).map (fun xoffset => x + Arith.ofInt (1 - strip.fProj) * xoffset))

-- One pass of the loop over the clusters of a strip: the truth so far and
-- nOverlapSignal. A failed assert or an index out of range has no result.
def addContribution (m : DBManager F) (fSignalInfo : List SignalInfo) (fGEMClust : List (GEMCluster F)) (strip : DigiGEMStrip F)
    (acc : MCHitInfo F × F) (entry : Int × Nat) : Option (MCHitInfo F × F) :=
  let (mc, nOverlapSignal) := acc
  let iclust := entry.1 - 1
  (clusterOf fGEMClust entry.1).bind (fun c =>
    let mc := mc.addCluster strip c iclust entry.2
    if c.fID = iclust + 1 ∧ strip.fPlane = c.fPlane ∧ strip.fSector = c.fSector then
      let signalID := signalID fSignalInfo c
      if 0 ≤ signalID ∧ c.fSource = kPrimarySource then
        (clusterPos m strip c).bind (fun pos =>
          if 0 < mc.fMCTrack then
            some ({ mc with fMCPos := mc.fMCPos + pos, fMCTime := mc.fMCTime + c.fTime }, nOverlapSignal + 1.0)
          else
            (fSignalInfo[signalID.toNat]?).map (fun info =>
              ({ mc with fMCTrack := info.tid, fMCPos := pos, fMCTime := c.fTime }, nOverlapSignal + 1.0)))
      else
        let mc := { mc with fContam := mc.fContam + 1 }
        if mc.fMCTrack = 0 then
          (clusterPos m strip c).map (fun pos => ({ mc with fMCPos := mc.fMCPos + pos }, nOverlapSignal))
        else some (mc, nOverlapSignal)
    else none)

def inducedOnly (fSigType : Nat) : Bool :=
  fSigType.testBit kInducedStrip && !fSigType.testBit kPrimaryStrip && !fSigType.testBit kSecondaryStrip

-- GetSBSMCHitInfo from the strip record on.
def stripMCHitInfo (m : DBManager F) (fNReadOut : Int) (fSignalInfo : List SignalInfo) (fGEMClust : List (GEMCluster F))
    (strip : DigiGEMStrip F) : Option (MCHitInfo F) :=
  if 0 ≤ strip.fProj ∧ strip.fProj < fNReadOut then
    let mc := { (MCHitInfo.new : MCHitInfo F) with fSigType := strip.fSigType }
    if inducedOnly strip.fSigType then
      (m.getPosFromModuleStrip strip.fProj strip.fPlane strip.fModule strip.fChan).map (fun pos =>
        { mc with fMCTrack := 0, fMCPos := pos, fMCTime := strip.fTime1 })
    else
      (strip.fClusters.zipIdx.foldlM (addContribution m fSignalInfo fGEMClust strip)
          ({ mc with fMCCharge := strip.fCharge }, 0.0)).bind (fun acc =>
        let (mc, nOverlapSignal) := acc
        if strip.fClusters.length = 0 ∨ 0 < mc.fMCTrack ∨ 0 < mc.fContam then
          some (
            if mc.fMCTrack = 0 then
              { mc with
                fMCPos := if 1 < mc.fContam then mc.fMCPos / Arith.ofInt mc.fContam else mc.fMCPos
                fMCTime := strip.fTime1 }
            else { mc with fMCPos := mc.fMCPos / nOverlapSignal, fMCTime := mc.fMCTime / nOverlapSignal })
        else none)
  else none

def getSBSMCHitInfo (m : DBManager F) (slots : SlotLayout) (fStripMap : List (Int × Nat)) (fNReadOut : Int)
    (fSignalInfo : List SignalInfo) (simEvent : SimEvent F) (a : RocAddress) : Option (MCHitInfo F) :=
  let istrip := stripFromROC m slots fStripMap a
  if 0 ≤ istrip then
    (simEvent.fGEMStrips[istrip.toNat]?).bind (stripMCHitInfo m fNReadOut fSignalInfo simEvent.fGEMClust)
  else none

end Solgem
