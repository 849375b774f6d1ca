import Mathlib.Logic.Function.Basic
import Solgem.Arith

set_option autoImplicit false

namespace Solgem

-- GeoInfo, with the fields the lookups below read.
structure GeoInfo (F : Type) where
  d0 : F
  xoffset : F
  dx : F
  dy : F
  pitch_u : F
  pitch_v : F

-- The values LoadGeneralInfo reads from the generalinfo file.
structure GeneralInfo where
  nchamber : Int
  nplane : Int
  nmodule : List Int
  chan_per_slot : Int
  g4sbs_detectortype : Int

structure DBManager (F : Type) where
  fNChamber : Int
  fNGEMPlane : Int
  fNModule : List Int
  fChanPerSlot : Int
  fg4sbsDetectorType : Int
  fmPMtoIgem : Int → Int → Option Int
  fmIgemtoPlane : Int → Option Int
  fmIgemtoModule : Int → Option Int
  fPMGeoInfo : Int → Option (List (GeoInfo F))

def fErrVal : Int := -999

namespace DBManager

variable {F : Type}

def loadModule (i : Int) (acc : DBManager F × Int) (j : Nat) : DBManager F × Int :=
  let (m, nGEMtot) := acc
  ({ m with
      fmPMtoIgem := Function.update m.fmPMtoIgem i (Function.update (m.fmPMtoIgem i) j (some nGEMtot))
      fmIgemtoPlane := Function.update m.fmIgemtoPlane nGEMtot (some i)
      fmIgemtoModule := Function.update m.fmIgemtoModule nGEMtot (some (j : Int)) },
    nGEMtot + 1)

def loadPlane (acc : DBManager F × Int) (plane : Int × Nat) : DBManager F × Int :=
  let (nmodule, i) := plane
  let m := { acc.1 with
    fNModule := acc.1.fNModule ++ [nmodule]
    fPMGeoInfo := Function.update acc.1.fPMGeoInfo i (some []) }
  (List.range nmodule.toNat).foldl (loadModule i) (m, acc.2)

def fresh (info : GeneralInfo) : DBManager F where
  fNChamber := info.nchamber
  fNGEMPlane := info.nplane
  fNModule := []
  fChanPerSlot := info.chan_per_slot
  fg4sbsDetectorType := info.g4sbs_detectortype
  fmPMtoIgem := fun _ _ => none
  fmIgemtoPlane := fun _ => none
  fmIgemtoModule := fun _ => none
  fPMGeoInfo := fun _ => none

-- The program exits when the number of module counts is not nplane.
def loadGeneralInfo (info : GeneralInfo) : Option (DBManager F) :=
  if info.nplane = info.nmodule.length then some (info.nmodule.zipIdx.foldl loadPlane (fresh info, 0)).1 else none

-- One geometry record for every module; the program exits when one is missing.
def loadGeoInfo (m : DBManager F) (geo : Int → Int → Option (GeoInfo F)) : Option (DBManager F) :=
  m.fNModule.zipIdx.foldlM (fun (m : DBManager F) (plane : Int × Nat) =>
    ((List.range plane.1.toNat).mapM (fun j : Nat => geo plane.2 j)).map (fun records =>
      { m with
        fPMGeoInfo := Function.update m.fPMGeoInfo plane.2 (some ((m.fPMGeoInfo plane.2).getD [] ++ records)) })) m

-- A vector index out of range has no value.
def getNModule (m : DBManager F) (plane : Int) : Option Int :=
  if plane < 0 then some 0 else m.fNModule[plane.toNat]?

-- The lookups go through std::map::operator[], which enters a zero for a key
-- that is not there; a later lookup of the same key reads the same zero.
def getPlaneID (m : DBManager F) (igem : Int) : Int := (m.fmIgemtoPlane igem).getD 0
def getModuleID (m : DBManager F) (igem : Int) : Int := (m.fmIgemtoModule igem).getD 0
def getGEMID (m : DBManager F) (ip im : Int) : Int := (m.fmPMtoIgem ip im).getD 0

def checkIndex (m : DBManager F) (i j : Int) : Option Bool :=
  if m.fNChamber ≤ i ∨ i < 0 then some false
  else (m.fNModule[i.toNat]?).map (fun nmodule => !decide (nmodule ≤ j ∨ j < 0))

-- Every record is tried; the last one that contains x decides.
def getModuleIDFromPos [Arith F] (m : DBManager F) (iplane : Int) (x : F) : Option Int :=
  (m.checkIndex iplane 0).map (fun valid =>
    if valid then
      ((m.fPMGeoInfo iplane).getD []).zipIdx.foldl (fun module record =>
        if record.1.xoffset - record.1.dx / 2.0 ≤ x ∧ x ≤ record.1.xoffset + record.1.dx / 2.0 then (record.2 : Int)
        else module) (-1)
    else fErrVal)

-- The geometry record a module index is looked up in with std::vector::at.
def geoInfo (m : DBManager F) (i j : Int) : Option (GeoInfo F) := ((m.fPMGeoInfo i).getD [])[j.toNat]?

def getXOffset [Arith F] (m : DBManager F) (i j : Int) : Option F :=
  (m.checkIndex i j).bind (fun valid =>
    if valid then (m.geoInfo i j).map GeoInfo.xoffset else some (Arith.ofInt fErrVal))

def getGeo [Arith F] (field : GeoInfo F → F) (m : DBManager F) (i j : Int) : Option F :=
  (m.checkIndex i j).bind (fun valid =>
    if valid then (m.geoInfo i j).map field else some (Arith.ofInt fErrVal))

def getD0 [Arith F] (m : DBManager F) (i j : Int) : Option F := m.getGeo GeoInfo.d0 i j
def getDX [Arith F] (m : DBManager F) (i j : Int) : Option F := m.getGeo GeoInfo.dx i j
def getDY [Arith F] (m : DBManager F) (i j : Int) : Option F := m.getGeo GeoInfo.dy i j

def getPosFromModuleStrip [Arith F] (m : DBManager F) (iproj iplane imodule istrip : Int) : Option F :=
  (m.checkIndex iplane imodule).bind (fun valid =>
    if valid then
      if iproj = 0 then
        (m.geoInfo iplane imodule).map (fun geo => geo.pitch_u * Arith.ofInt istrip - geo.dx / 2.0 + geo.xoffset)
      else if iproj = 1 then
        (m.geoInfo iplane imodule).map (fun geo => geo.pitch_v * Arith.ofInt istrip - geo.dy / 2.0)
      else some (Arith.ofInt fErrVal)
    else some (Arith.ofInt fErrVal))

theorem load_modules_frame (i : Int) (js : List Nat) (acc : DBManager F × Int) :
    (js.foldl (loadModule i) acc).1.fNModule = acc.1.fNModule ∧
      (js.foldl (loadModule i) acc).1.fChanPerSlot = acc.1.fChanPerSlot ∧
      (js.foldl (loadModule i) acc).1.fNChamber = acc.1.fNChamber := by
  induction js generalizing acc with
  | nil => exact ⟨rfl, rfl, rfl⟩
  | cons j rest ih => exact ih (loadModule i acc j)

theorem load_planes_frame (planes : List (Int × Nat)) (acc : DBManager F × Int) :
    (planes.foldl loadPlane acc).1.fNModule = acc.1.fNModule ++ planes.map Prod.fst ∧
      (planes.foldl loadPlane acc).1.fChanPerSlot = acc.1.fChanPerSlot ∧
      (planes.foldl loadPlane acc).1.fNChamber = acc.1.fNChamber := by
  induction planes generalizing acc with
  | nil => exact ⟨by simp, rfl, rfl⟩
  | cons plane rest ih =>
      obtain ⟨counts, channels, chambers⟩ := ih (loadPlane acc plane)
      obtain ⟨moduleCounts, moduleChannels, moduleChambers⟩ := load_modules_frame plane.2 (List.range plane.1.toNat)
        ({ acc.1 with
            fNModule := acc.1.fNModule ++ [plane.1]
            fPMGeoInfo := Function.update acc.1.fPMGeoInfo plane.2 (some []) }, acc.2)
      refine ⟨?_, channels.trans moduleChannels, chambers.trans moduleChambers⟩
      rw [List.foldl_cons, counts, loadPlane, moduleCounts, List.map_cons, List.append_assoc, List.singleton_append]

theorem load_general_info_fields (info : GeneralInfo) (m : DBManager F) (loaded : loadGeneralInfo info = some m) :
    m.fNModule = info.nmodule ∧ m.fChanPerSlot = info.chan_per_slot ∧ m.fNChamber = info.nchamber := by
  by_cases matched : info.nplane = info.nmodule.length
  · rw [loadGeneralInfo, if_pos matched] at loaded
    obtain ⟨counts, channels, chambers⟩ := load_planes_frame info.nmodule.zipIdx (fresh info, (0 : Int))
    rw [← Option.some.inj loaded]
    exact ⟨by simpa [fresh] using counts, channels, chambers⟩
  · rw [loadGeneralInfo, if_neg matched] at loaded
    cases loaded

end DBManager

end Solgem
