import Mathlib.Logic.Function.Basic
import Mathlib.Algebra.BigOperators.Group.List.Basic
import Solgem.Draw
import Solgem.GEMHit

set_option autoImplicit false

namespace Solgem

open Lib

-- enum StripSignalType: the number of the bit each kind of signal sets.
def kPrimaryStrip : Nat := 0
def kSecondaryStrip : Nat := 1
def kInducedStrip : Nat := 2

-- The static cross-talk settings of TSBSSimGEMDigitization.
structure CrossTalk (F : Type) where
  fDoCrossTalk : Bool
  fNCStripApart : Int
  fCrossFactor : F
  fCrossSigma : F

-- TSBSDigitizedPlane. Arrays are functions of the index; fStripADC is indexed
-- by strip * fNSamples + sample, and fOverThr holds its first fNOT entries.
structure DigitizedPlane (F : Type) where
  fNSamples : Nat
  fNStrips : Nat
  fThreshold : Int
  fStripADC : Nat → Int
  fType : Nat → Nat
  fTotADC : Nat → Int
  fCharge : Nat → F
  fTime : Nat → F
  fOverThr : List Int
  fStripClusters : Nat → List Int
  fStripWeightInCluster : Nat → List F
  fStripClusterADC : Nat → Nat → List Int

namespace DigitizedPlane

variable {F : Type} [Arith F] {rng : Rng F}

def clear (p : DigitizedPlane F) : DigitizedPlane F :=
  { p with
    fStripADC := fun _ => 0
    fType := fun _ => 0
    fTotADC := fun _ => 0
    fCharge := fun _ => 0.0
    fTime := fun _ => 9999.0
    fOverThr := []
    fStripClusters := fun _ => []
    fStripWeightInCluster := fun _ => []
    fStripClusterADC := fun _ _ => [] }

-- The constructor takes strips and samples as UShort_t and ends in Clear.
def new (nstrip nsample threshold : Int) : DigitizedPlane F where
  fNSamples := toUInt16 nsample
  fNStrips := toUInt16 nstrip
  fThreshold := threshold
  fStripADC := fun _ => 0
  fType := fun _ => 0
  fTotADC := fun _ => 0
  fCharge := fun _ => 0.0
  fTime := fun _ => 9999.0
  fOverThr := []
  fStripClusters := fun _ => []
  fStripWeightInCluster := fun _ => []
  fStripClusterADC := fun _ _ => []

def getADC (p : DigitizedPlane F) (n ks : Nat) : Int := p.fStripADC (n * p.fNSamples + ks)

def addADC (p : DigitizedPlane F) (idx k : Nat) (nnn : Int) : DigitizedPlane F :=
  { p with
    fStripADC := Function.update p.fStripADC (idx * p.fNSamples + k) (p.fStripADC (idx * p.fNSamples + k) + nnn)
    fTotADC := Function.update p.fTotADC idx (p.fTotADC idx + nnn) }

def pushClusterADC (p : DigitizedPlane F) (k idx : Nat) (nnn : Int) : DigitizedPlane F :=
  { p with
    fStripClusterADC :=
      Function.update p.fStripClusterADC k
        (Function.update (p.fStripClusterADC k) idx (p.fStripClusterADC k idx ++ [nnn])) }

-- fType[idx] |= mask, the new fTime[idx], fCharge[idx] += charge.
def mark (p : DigitizedPlane F) (idx mask : Nat) (time charge : F) : DigitizedPlane F :=
  { p with
    fType := Function.update p.fType idx (p.fType idx ||| mask)
    fTime := Function.update p.fTime idx time
    fCharge := Function.update p.fCharge idx (Arith.single (p.fCharge idx + charge)) }

-- The check made after the samples of one strip: was_below is the state of
-- the strip before them.
def recordOverThr (p : DigitizedPlane F) (was_below : Bool) (idx : Nat) : Option (DigitizedPlane F) :=
  if was_below ∧ p.fThreshold < p.fTotADC idx then
    if p.fOverThr.length < p.fNStrips then some { p with fOverThr := p.fOverThr ++ [toInt16 idx] } else none
  else some p

def pushCluster (p : DigitizedPlane F) (idx : Nat) (weight : F) (clusterID : Int) : DigitizedPlane F :=
  { p with
    fStripWeightInCluster := Function.update p.fStripWeightInCluster idx (p.fStripWeightInCluster idx ++ [weight])
    fStripClusters := Function.update p.fStripClusters idx (p.fStripClusters idx ++ [clusterID]) }

def cumulateSample (vv : GEMHit F) (j idx : Nat) (acc : DigitizedPlane F × F) (k : Nat) :
    Option (DigitizedPlane F × F) :=
  let nnn := vv.getADC j k
  let p := acc.1.pushClusterADC k idx nnn
  if 0 ≤ nnn then
    if nnn = 0 then some (p, acc.2) else some (p.addADC idx k nnn, acc.2 + Arith.ofInt nnn)
  else none

def earlier (a b : F) : F := if a < b then a else b

def cumulateStrip (vv : GEMHit F) (type : Nat) (clusterID : Int) (p : DigitizedPlane F) (j : Nat) :
    Option (DigitizedPlane F) :=
  let idx := vv.getIdx j
  if 0 ≤ idx ∧ idx < p.fNStrips then
    let strip := idx.toNat
    let was_below := !decide (p.fThreshold < p.fTotADC strip)
    let marked := p.mark strip type (earlier (p.fTime strip) vv.fTime) (vv.getCharge j)
    ((List.range p.fNSamples).foldlM (cumulateSample vv j strip) (marked, 0.0)).bind (fun acc =>
      (acc.1.recordOverThr was_below strip).map (fun q =>
        q.pushCluster strip (acc.2 / Arith.ofInt vv.fTotalADC) clusterID))
  else none

def induceSample (vv : GEMHit F) (factor : F) (j idxInduce : Nat) (p : DigitizedPlane F) (k : Nat) :
    Option (DigitizedPlane F) :=
  let nnn := vv.getADC j k
  if 0 ≤ nnn then
    let nnn := Arith.trunc (Arith.ofInt nnn * factor)
    if nnn = 0 then some p else some (p.addADC idxInduce k nnn)
  else none

-- The second loop of Cumulate. The time is taken from the strip that was hit,
-- not from the one that receives the induced signal.
def induceStrip (vv : GEMHit F) (shift : Int) (factor : F) (p : DigitizedPlane F) (j : Nat) :
    Option (DigitizedPlane F) :=
  let idx := vv.getIdx j
  if 0 ≤ idx ∧ idx < p.fNStrips then
    let idxInduce := idx + shift
    if idxInduce < 0 ∨ p.fNStrips ≤ idxInduce then some p
    else
      let strip := idxInduce.toNat
      let was_below := !decide (p.fThreshold < p.fTotADC strip)
      let marked := p.mark strip (1 <<< kInducedStrip) (earlier (p.fTime idx.toNat) vv.fTime) (factor * vv.getCharge j)
      ((List.range p.fNSamples).foldlM (induceSample vv factor j strip) marked).bind (fun q =>
        q.recordOverThr was_below strip)
  else none

-- The draws Cumulate makes from fRan: which side receives the induced signal,
-- as a shift of the strip index, and its relative size; none if it is dropped.
def drawCrossTalk (ct : CrossTalk F) (g : Gen) : Draw rng (Option (Int × F)) :=
  if ct.fDoCrossTalk then do
    let u ← drawUniform g 0.0 1.0
    let isLeft : Int := if u < 0.5 then -1 else 1
    let spread ← drawGaus g 0.0 ct.fCrossSigma
    let factor := ct.fCrossFactor + spread
    if factor ≤ 0.0 then pure none else pure (some (isLeft * ct.fNCStripApart, factor))
  else pure none

def cumulateDirect (p : DigitizedPlane F) (vv : GEMHit F) (type : Nat) (clusterID : Int) : Option (DigitizedPlane F) :=
  (List.range vv.fSize.toNat).foldlM (cumulateStrip vv type clusterID) p

def cumulateInduced (p : DigitizedPlane F) (vv : GEMHit F) (induced : Option (Int × F)) : Option (DigitizedPlane F) :=
  match induced with
  | none => some p
  | some (shift, factor) => (List.range vv.fSize.toNat).foldlM (induceStrip vv shift factor) p

-- Cumulate for a hit that exists: AvaModel's null result is not passed on.
def cumulate (ct : CrossTalk F) (g : Gen) (p : DigitizedPlane F) (vv : GEMHit F) (type : Nat) (clusterID : Int) :
    Draw rng (DigitizedPlane F) := do
  let direct ← lift (check .cumulate (p.cumulateDirect vv type clusterID))
  let induced ← drawCrossTalk ct g
  lift (check .cumulate (direct.cumulateInduced vv induced))

def threshold (p : DigitizedPlane F) (thr : Int) : DigitizedPlane F :=
  { p with
    fThreshold := thr
    fOverThr := ((List.range p.fNStrips).filter (fun j => thr < p.fTotADC j)).map (fun j : Nat => toInt16 j) }

end DigitizedPlane

end Solgem
