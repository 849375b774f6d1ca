import Solgem.DBManager
import Solgem.Digitization
import Solgem.HitRecord
import Solgem.Lib.Listing

set_option autoImplicit false

namespace Solgem

open Lib

variable {F : Type} [Arith F]

structure RawHit (F : Type) where
  plane : Int
  trid : Int
  mid : Int
  pid : Int
  p : F
  edep : F
  tmin : F
  tmax : F
  tx : F
  txp : F
  typ : F
  xin : F
  yin : F
  zin : F
  xout : F
  yout : F
  zout : F
  vx : F
  vy : F
  vz : F

structure RawTrack (F : Type) where
  TID : Int
  PID : Int
  MID : Int
  X : F
  Y : F
  Xp : F
  Yp : F
  P : F

structure DetectorColumns (F : Type) where
  hit : List (RawHit F)
  Track : List (RawTrack F)

-- An entry of g4sbs_tree, with the branches of detector types 1, 3, 4 and 5.
structure G4SBSTree (F : Type) where
  ev_solang : F
  ev_sigma : F
  ev_v : V3 F
  ev_np : V3 F
  ev_ep : V3 F
  Earm_BBGEM : DetectorColumns F
  Harm_FT : DetectorColumns F
  Harm_FPP1 : DetectorColumns F
  Harm_FPP2 : DetectorColumns F

-- What ReadNextEvent may find in memory it has not written: the arrays of the
-- records it makes, by their position, and gen_data_temp[0].
structure Unwritten (F : Type) where
  hitData : Nat → Nat → F
  genData : Nat → F
  gen_data_temp : F

-- TSBSGeant4File, with the z offset its manager holds.
structure Geant4File (F : Type) where
  fManager : DBManager F
  fg4sbsZSpecOffset : F
  fSource : Int
  fEvNum : Int
  fg4sbsHitData : List (G4SBSHitData F)
  fg4sbsGenData : List (G4SBSHitData F)

-- What one case of the hit loop does its own way: the detector number, whether
-- the module is tested, the module whose size limits the exit point, and the
-- particle type.
structure HitBlock (F : Type) where
  det_id : Int
  testsModule : Bool
  side : Int → Int
  type : RawHit F → Int

namespace Geant4File

def setAtLimit (size x : F) : Option F :=
  if size * 5.0e2 ≤ Arith.abs x then some (x * (size * 5.0e2 / Arith.abs x)) else none

def hitDataTemp (g : Geant4File F) (block : HitBlock F) (h : RawHit F) (plane module : Int) : Option (List F) := do
  let xoffset ← g.fManager.getXOffset plane module
  let d0 ← g.fManager.getD0 plane module
  let dx ← g.fManager.getDX plane (block.side module)
  let dy ← g.fManager.getDY plane (block.side module)
  let pz := Arith.sqrt (h.p * h.p / (h.txp * h.txp + h.typ * h.typ + 1.0))
  let X_in : V3 F := ⟨(h.xin - xoffset) * 1.0e3, h.yin * 1.0e3, (h.zin + g.fg4sbsZSpecOffset - d0) * 1.0e3⟩
  let X_out : V3 F := ⟨(h.xout - xoffset) * 1.0e3, h.yout * 1.0e3, (h.zout + g.fg4sbsZSpecOffset - d0) * 1.0e3⟩
  let X_RO : V3 F := ⟨X_in.x + (h.xout - h.xin) * 9.185 / 3.0, X_in.y + (h.yout - h.yin) * 9.185 / 3.0, 7.685⟩
  let limitX := setAtLimit dx X_out.x
  let limitY := setAtLimit dy X_out.y
  -- Entry 23 is sector, which stays 0 in these cases.
  pure
    [Arith.ofInt plane, h.edep * 1.0e3,
      limitX.getD X_RO.x, limitY.getD X_RO.y, X_RO.z,
      X_in.x, X_in.y, X_in.z, h.tmin,
      limitX.getD X_out.x, limitY.getD X_out.y, X_out.z, h.tmax, Arith.ofInt (block.type h),
      h.vx * 1.0e3, h.vy * 1.0e3, h.vz * 1.0e3,
      Arith.ofInt h.trid, Arith.ofInt h.pid, Arith.ofInt module,
      h.txp * pz * 1.0e3, h.typ * pz * 1.0e3, pz * 1.0e3, Arith.ofInt 0]

-- One pass of a hit loop; none when a vector index is out of range.
def readHit (g : Geant4File F) (memory : Nat → Nat → F) (block : HitBlock F) (stored : List (G4SBSHitData F))
    (h : RawHit F) : Option (List (G4SBSHitData F)) := do
  let plane := h.plane - 1
  let module ← g.fManager.getModuleIDFromPos plane h.tx
  if block.testsModule ∧ module = -1 then return stored
  let hit_data_temp ← g.hitDataTemp block h plane module
  let record ← G4SBSHitData.new (memory stored.length) block.det_id 24
  return stored ++ [record.setAll hit_data_temp]

def readHits (g : Geant4File F) (memory : Nat → Nat → F) (block : HitBlock F) (hits : List (RawHit F)) :
    Option (List (G4SBSHitData F)) :=
  hits.foldlM (g.readHit memory block) []

def genDataTemp (tree : G4SBSTree F) (trackVertexMom : V3 F) (track : RawTrack F) : List F :=
  let pz := track.P / Arith.sqrt (1.0 + track.Xp * track.Xp + track.Yp * track.Yp)
  [Arith.ofInt track.TID, Arith.ofInt track.PID, pz * track.Xp, pz * track.Yp, pz,
    track.X * 1.0e3, track.Y * 1.0e3, 0.0, tree.ev_solang * tree.ev_sigma,
    trackVertexMom.x, trackVertexMom.y, trackVertexMom.z, tree.ev_v.x, tree.ev_v.y, tree.ev_v.z]

-- The g4sbsgendata record of a track: 15 doubles, the weight preset to 1.
def genRecord (memory : Nat → F) (tree : G4SBSTree F) (trackVertexMom : V3 F) (track : RawTrack F) :
    Option (G4SBSHitData F) :=
  (G4SBSHitData.new memory (-1) 15).map (fun record => (record.setData 8 1.0).setAll (genDataTemp tree trackVertexMom track))

-- The generated track of a signal file is the first one, if it passes a test.
def readTrack (g : Geant4File F) (memory : Nat → F) (tree : G4SBSTree F) (trackVertexMom : V3 F)
    (tracks : List (RawTrack F)) (wanted : RawTrack F → Bool) : Option (List (G4SBSHitData F)) :=
  match tracks with
  | [] => some []
  | track :: _ =>
      if g.fSource = 0 ∧ wanted track then (genRecord memory tree trackVertexMom track).map (fun record => [record])
      else some []

def bbgemBlock : HitBlock F := ⟨1, true, fun module => module, fun h => h.mid + 1⟩

def ftBlock (g : Geant4File F) : HitBlock F := ⟨3, false, fun _ => 0, fun h => h.mid + g.fSource + 1⟩

-- Both polarimeters take a hit of the generated track for a primary.
def fppBlock (g : Geant4File F) (MID : Int) (trid : F) : HitBlock F :=
  ⟨4, false, fun _ => 0, fun h =>
    if h.mid = MID ∧ Arith.ofInt h.trid ≤ trid ∧ trid ≤ Arith.ofInt h.trid then g.fSource + 1 else h.mid + g.fSource + 1⟩

def readBBGEM (g : Geant4File F) (unwritten : Unwritten F) (tree : G4SBSTree F) : Option (Geant4File F) := do
  let hits ← g.readHits unwritten.hitData bbgemBlock tree.Earm_BBGEM.hit
  let tracks ← g.readTrack unwritten.genData tree tree.ev_ep tree.Earm_BBGEM.Track (fun track => track.MID = 0)
  return { g with fg4sbsHitData := hits, fg4sbsGenData := tracks }

def readFT (g : Geant4File F) (unwritten : Unwritten F) (tree : G4SBSTree F) : Option (Geant4File F) := do
  let hits ← g.readHits unwritten.hitData g.ftBlock tree.Harm_FT.hit
  let tracks ← g.readTrack unwritten.genData tree tree.ev_np tree.Harm_FT.Track (fun track => track.MID = 0)
  return { g with fg4sbsHitData := hits, fg4sbsGenData := tracks }

-- MID and gen_data_temp[0] when the hit loop of a polarimeter starts. The
-- second polarimeter takes the MID of the first one's first track.
def fpp1Primary (g : Geant4File F) (unwritten : Unwritten F) (tree : G4SBSTree F) : Int × F :=
  match tree.Harm_FPP1.Track with
  | [] => (0, unwritten.gen_data_temp)
  | track :: _ =>
      if g.fSource = 0 ∧ track.PID = 2212 then (track.MID, Arith.ofInt track.TID) else (0, unwritten.gen_data_temp)

def fpp2Primary (g : Geant4File F) (unwritten : Unwritten F) (tree : G4SBSTree F) : Option (Int × F) :=
  match tree.Harm_FPP2.Track with
  | [] => some (0, unwritten.gen_data_temp)
  | track :: _ =>
      if g.fSource = 0 ∧ track.PID = 2212 then
        (tree.Harm_FPP1.Track.head?).map (fun first => (first.MID, Arith.ofInt track.TID))
      else some (0, unwritten.gen_data_temp)

def readFPP1 (g : Geant4File F) (unwritten : Unwritten F) (tree : G4SBSTree F) : Option (Geant4File F) := do
  let tracks ← g.readTrack unwritten.genData tree tree.ev_np tree.Harm_FPP1.Track (fun track => track.PID = 2212)
  let primary := g.fpp1Primary unwritten tree
  let hits ← g.readHits unwritten.hitData (g.fppBlock primary.1 primary.2) tree.Harm_FPP1.hit
  return { g with fg4sbsHitData := hits, fg4sbsGenData := tracks }

def readFPP2 (g : Geant4File F) (unwritten : Unwritten F) (tree : G4SBSTree F) : Option (Geant4File F) := do
  let primary ← g.fpp2Primary unwritten tree
  let tracks ← g.readTrack unwritten.genData tree tree.ev_np tree.Harm_FPP2.Track (fun track => track.PID = 2212)
  let hits ← g.readHits unwritten.hitData (g.fppBlock primary.1 primary.2) tree.Harm_FPP2.hit
  return { g with fg4sbsHitData := hits, fg4sbsGenData := tracks }

-- The cases of detector types 1, 3, 4 and 5; the others have no result here.
-- A missing entry leaves the file cleared.
def readNextEvent (g : Geant4File F) (unwritten : Unwritten F) (entry : Option (G4SBSTree F)) : Option (Geant4File F) :=
  let cleared := { g with fg4sbsHitData := [], fg4sbsGenData := [], fEvNum := g.fEvNum + 1 }
  match entry with
  | none => some cleared
  | some tree =>
      if g.fManager.fg4sbsDetectorType = 1 then cleared.readBBGEM unwritten tree
      else if g.fManager.fg4sbsDetectorType = 3 then cleared.readFT unwritten tree
      else if g.fManager.fg4sbsDetectorType = 4 then cleared.readFPP1 unwritten tree
      else if g.fManager.fg4sbsDetectorType = 5 then cleared.readFPP2 unwritten tree
      else none

end Geant4File

-- TSBSGEMSimHitData::GEMHitData_t with the readout point as well, and what
-- GetGEMData fills.
structure ReadGEMHit (F : Type) extends GEMHitData F where
  fXr : V3 F

structure ReadGEMData (F : Type) where
  fRunID : Nat
  fEvtID : Nat
  fSource : Int
  fHitData : List (ReadGEMHit F)

def ReadGEMHit.blank : ReadGEMHit F where
  fGem := 0
  fPlane := 0
  fModule := 0
  fEdep := 0.0
  fTime := 0.0
  fType := 0
  fTRID := 0
  fPID := 0
  fXi := ⟨0.0, 0.0, 0.0⟩
  fXo := ⟨0.0, 0.0, 0.0⟩
  fXr := ⟨0.0, 0.0, 0.0⟩
  fMom := ⟨0.0, 0.0, 0.0⟩
  fVert := ⟨0.0, 0.0, 0.0⟩

namespace Geant4File

-- The hit of one record; its numbers are doubles, converted back to integers.
def gemHit (m : DBManager F) (h : G4SBSHitData F) : ReadGEMHit F where
  fMom := ⟨h.getData 20, h.getData 21, h.getData 22⟩
  fXi := ⟨h.getData 5, h.getData 6, h.getData 7⟩
  fXo := ⟨h.getData 9, h.getData 10, h.getData 11⟩
  fTime := (h.getData 8 + h.getData 12) / 2.0
  fVert := ⟨h.getData 14, h.getData 15, h.getData 16⟩
  fXr := ⟨h.getData 2, h.getData 3, h.getData 4⟩
  fEdep := h.getData 1 * 1e6
  fType := toUInt32 (Arith.trunc (h.getData 13))
  fTRID := toUInt32 (Arith.trunc (h.getData 17))
  fPID := Arith.trunc (h.getData 18)
  fGem := toUInt32 (m.getGEMID (Arith.trunc (h.getData 0)) (Arith.trunc (h.getData 19)))
  fPlane := toUInt32 (Arith.trunc (h.getData 0))
  fModule := toUInt32 (Arith.trunc (h.getData 19))

-- GetGEMData: room for every record, the hits with an energy deposit written
-- from the front, and the rest cut off.
def getGEMData (g : Geant4File F) (fRunID : Nat) : ReadGEMData F :=
  let packed := g.fg4sbsHitData.foldl (fun (gd : List (ReadGEMHit F) × Nat) h =>
    if 0.0 < h.getData 1 then (gd.1.set gd.2 (gemHit g.fManager h), gd.2 + 1) else gd)
    (List.replicate g.fg4sbsHitData.length ReadGEMHit.blank, 0)
  { fRunID := fRunID
    fEvtID := toUInt32 g.fEvNum
    fSource := g.fSource
    fHitData := packed.1.take packed.2 }

theorem gem_data_hits (g : Geant4File F) (fRunID : Nat) :
    (g.getGEMData fRunID).fHitData =
      (g.fg4sbsHitData.filter (fun h => decide (0.0 < h.getData 1))).map (gemHit g.fManager) := by
  exact compact_loop (fun h : G4SBSHitData F => 0.0 < h.getData 1) (gemHit g.fManager) g.fg4sbsHitData []
    (List.replicate g.fg4sbsHitData.length ReadGEMHit.blank) (by rw [List.length_replicate])

end Geant4File

end Solgem
