import Solgem.Arith
import Solgem.Lib.Words

set_option autoImplicit false

namespace Solgem

open Lib

variable {F : Type} [Arith F]

-- TSBSBox, with the rotation matrix SetRotations computes once.
structure Box (F : Type) where
  fD0 : F
  fXOffset : F
  fDX : F
  fDY : F
  fRotMat_BL : Fin 3 → Fin 3 → F

namespace Box

def contains (b : Box F) (x y : F) : Bool :=
  if b.fDX / 2.0 < Arith.abs x ∨ b.fDY / 2.0 < Arith.abs y then false else true

def boxToSpec (b : Box F) (v : V3 F) : V3 F := { v with x := v.x + b.fXOffset * 1.0e3 }

def specToLab (b : Box F) (v : V3 F) : V3 F :=
  let row := fun i => b.fRotMat_BL i 0 * v.x + b.fRotMat_BL i 1 * v.y + b.fRotMat_BL i 2 * v.z
  ⟨row 0, row 1, row 2⟩

end Box

-- TSBSGEMPlane after ReadGeometry and SetRotations.
structure GEMPlane (F : Type) where
  fSAngle : F
  fNStrips : Int
  fSPitch : F
  fSBeg : F
  fBox : Box F
  fCBS : F
  fSBS : F

namespace GEMPlane

def planeToStrip (pl : GEMPlane F) (pos : F × F) : F × F :=
  (pl.fCBS * pos.1 - pl.fSBS * pos.2, pl.fSBS * pos.1 + pl.fCBS * pos.2)

def stripToPlane (pl : GEMPlane F) (pos : F × F) : F × F :=
  (pl.fCBS * pos.1 + pl.fSBS * pos.2, -pl.fSBS * pos.1 + pl.fCBS * pos.2)

-- Both edges take the strip number as UInt_t.
def getStripLowerEdge (pl : GEMPlane F) (is : Int) : F := pl.fSBeg + Arith.ofInt (toUInt32 is) * pl.fSPitch
def getStripUpperEdge (pl : GEMPlane F) (is : Int) : F := pl.getStripLowerEdge is + pl.fSPitch

def getStripUnchecked (pl : GEMPlane F) (x : F) : Int := Arith.trunc ((x - pl.fSBeg) / pl.fSPitch)

def getStripInRange (pl : GEMPlane F) (x : F) : Int :=
  let s := pl.getStripUnchecked x
  let s := if s < 0 then 0 else s
  if pl.fNStrips ≤ s then pl.fNStrips - 1 else s

-- No value when the assert on the strip number fails.
def getStrip (pl : GEMPlane F) (x yc : F) : Option Int :=
  let c := pl.stripToPlane (x, yc)
  if pl.fBox.contains c.1 c.2 then
    let s := pl.getStripUnchecked x
    if 0 ≤ s ∧ s < pl.fNStrips then some s else none
  else some (-1)

theorem get_strip_bounds (pl : GEMPlane F) (x yc : F) (s : Int) (found : pl.getStrip x yc = some s) :
    s = -1 ∨ (0 ≤ s ∧ s < pl.fNStrips) := by
  simp only [getStrip] at found
  split at found
  · split at found
    · rename_i inside
      rw [← Option.some.inj found]
      exact .inr inside
    · cases found
  · exact .inl (Option.some.inj found).symm

theorem get_strip_in_range_bounds (pl : GEMPlane F) (x : F) (strips : 0 < pl.fNStrips) :
    0 ≤ pl.getStripInRange x ∧ pl.getStripInRange x < pl.fNStrips := by
  simp only [getStripInRange]
  split <;> split <;> omega

end GEMPlane

-- TSBSGEMChamber: the constructor fixes the number of readout planes at two.
structure GEMChamber (F : Type) where
  fPlanes : Fin 2 → GEMPlane F
  fBox : Box F

namespace GEMChamber

def specToLab (ch : GEMChamber F) (v : V3 F) : V3 F := ch.fBox.specToLab v

def planeToSpec (ch : GEMChamber F) (v : V3 F) : V3 F :=
  ch.fBox.boxToSpec { v with z := v.z + ch.fBox.fD0 * 1.0e3 }

end GEMChamber

end Solgem
