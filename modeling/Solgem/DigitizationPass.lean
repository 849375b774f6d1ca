import Solgem.BackgroundFiles
import Solgem.ClusterIDs
import Solgem.FilledStrips
import Solgem.RescuedTrack
import Solgem.SignalOrder

set_option autoImplicit false

namespace Solgem

open Lib Digitizer

section
variable {F : Type}

-- What a TSBSGeant4File holds after ReadNextEvent has read one entry.
structure FileEntry (F : Type) where
  fg4sbsHitData : List (G4SBSHitData F)
  fg4sbsGenData : List (G4SBSHitData F)
  fECalClusters : List (ECalCluster F)
  fScintClusters : List (ScintCluster F)

-- What the digitizer reads of the hits GetGEMData packs.
def ReadGEMData.simHitData (gd : ReadGEMData F) : SimHitData F :=
  ⟨gd.fRunID, gd.fEvtID, gd.fSource, gd.fHitData.map ReadGEMHit.toGEMHitData⟩

-- A digitization program with its arguments and the background files there
-- are. DigitizationPass.C starts at event 0 with the limit 1000, DigDemo3.C
-- with 500; DigiPass.C starts every file at Nmin and has the limit 10000.
structure PassInput (F : Type) where
  su : Setup F
  fg4sbsZSpecOffset : F
  Nmin : Nat
  Nmax : Nat
  nbacktoadd : Nat
  limit : Nat
  background : Int → Option (List (FileEntry F))

-- The pointer gb to the last background data set.
inductive BackgroundPointer where
  | unset
  | live
  | deleted
deriving DecidableEq

-- The variables of the program that live from event to event. badDelete tells
-- whether gb was deleted when it pointed to no object.
structure Pass (F : Type) where
  nevent : Nat
  Ngood : Nat
  N_bg_file_g : Int
  digitizer : Digitizer F
  gb : BackgroundPointer
  badDelete : Bool

variable [Arith F] {rng : Rng F}

namespace G4SBSHitData

def getMomentumAtTarget (h : G4SBSHitData F) : V3 F :=
  if h.isFilled then ⟨h.fData 9, h.fData 10, h.fData 11⟩ else ⟨-1e9, -1e9, -1e9⟩

def getVertexAtTarget (h : G4SBSHitData F) : V3 F :=
  if h.isFilled then ⟨h.fData 12, h.fData 13, h.fData 14⟩ else ⟨-1e9, -1e9, -1e9⟩

-- A generated-track record through its getters.
def genData (h : G4SBSHitData F) : GenData F :=
  ⟨h.getTRID, h.getPID, h.getP, h.getV, h.getMomentumAtTarget, h.getVertexAtTarget, h.fData 8⟩

end G4SBSHitData

def FileEntry.event (entry : FileEntry F) : Geant4Event F :=
  ⟨entry.fg4sbsGenData.map G4SBSHitData.genData, entry.fECalClusters, entry.fScintClusters⟩

namespace PassInput

-- GetGEMData on entry fEvNum of a file with the given source number. The run
-- number of a fresh data set is 0.
def gemData (input : PassInput F) (fSource : Int) (entry : FileEntry F) (fEvNum : Nat) : SimHitData F :=
  (Geant4File.getGEMData ⟨input.su.manager, input.fg4sbsZSpecOffset, fSource, fEvNum, entry.fg4sbsHitData, entry.fg4sbsGenData⟩
    0).simHitData

def opens (input : PassInput F) (Nfile : Int) : Bool := (input.background Nfile).isSome

-- The data sets of an opened background file, its entries from the first on.
def backgroundData (input : PassInput F) (entries : List (FileEntry F)) : List (SimHitData F) :=
  entries.zipIdx.map (fun entry => input.gemData 1 entry.1 entry.2)

-- The same by the number of the file; a file that does not open has none.
def fileData (input : PassInput F) (Nfile : Int) : List (SimHitData F) :=
  (input.background Nfile).elim [] input.backgroundData

end PassInput

-- The loop over the background files; gb points to the last data set read.
def addBackground (input : PassInput F) : Nat → BackgroundLoop → Digitizer F × BackgroundPointer →
    Draw rng (Option (BackgroundLoop × Digitizer F × BackgroundPointer))
  | 0, _, _ => pure none
  | fuel + 1, l, (d, gb) =>
      if l.Nfile < l.N_bg_file_g_post then
        match input.background l.Nfile with
        | none => addBackground input fuel (l.missing input.limit input.nbacktoadd) (d, gb)
        | some entries => do
            let d ← (input.backgroundData entries).foldlM (additiveDigitize input.su) d
            addBackground input fuel l.next (d, if entries.isEmpty then gb else .live)
      else pure (some (l, d, gb))

namespace Pass

def skip (p : Pass F) : Pass F := { p with nevent := p.nevent + 1 }

-- What is left to do when the background is added: the event is written, and
-- gb deleted.
def finish (input : PassInput F) (p : Pass F) (added : BackgroundLoop × Digitizer F × BackgroundPointer) : Draw rng (Pass F) := do
  let d ← added.2.1.fillTree input.su
  pure
    { nevent := p.nevent + 1
      Ngood := p.Ngood + 1
      N_bg_file_g := added.1.nextFile input.limit
      digitizer := d
      gb := if input.nbacktoadd = 0 then added.2.2 else .deleted
      badDelete := p.badDelete || (input.nbacktoadd != 0 && added.2.2 != .live) }

-- One event of a signal file. Without background files to add, the loop is not
-- entered and N_bg_file_g_post stays what it was set to, N_bg_file_g.
def event (input : PassInput F) (fuel : Nat) (p : Pass F) (entry : FileEntry F × Nat) : Draw rng (Option (Pass F)) :=
  if entry.1.fg4sbsHitData.isEmpty then pure (some p.skip)
  else if entry.1.fg4sbsGenData.isEmpty then pure (some p.skip)
  else do
    let gd := input.gemData 0 entry.1 entry.2
    let d ← p.digitizer.setTreeEvent input.su gd entry.1.event p.nevent
    let d ← d.digitize input.su gd
    let l := BackgroundLoop.start input.nbacktoadd p.N_bg_file_g
    proceed (if input.nbacktoadd = 0 then pure (some (l, d, p.gb)) else addBackground input fuel l (d, p.gb))
      (fun added => do
        let p ← p.finish input added
        pure (some p))

-- The condition of the loop over the events of a file is tested at every
-- event; a file is read from entry Nmin on.
def guarded (input : PassInput F) (fuel : Nat) (p : Pass F) (entry : FileEntry F × Nat) : Draw rng (Option (Pass F)) :=
  if p.nevent < input.Nmax then p.event input fuel entry else pure (some p)

def fileEntries (input : PassInput F) (entries : List (FileEntry F)) : List (FileEntry F × Nat) := entries.zipIdx.drop input.Nmin

def file (input : PassInput F) (fuel : Nat) (p : Pass F) (file : Option (List (FileEntry F))) : Draw rng (Option (Pass F)) :=
  match file with
  | none => pure (some p)
  | some entries => proceedAll (guarded input fuel) (fileEntries input entries) p

def start (input : PassInput F) (ion : IonState F) : Pass F :=
  ⟨input.Nmin, 0, 0, Digitizer.new input.su ion (some []), .unset, false⟩

end Pass

-- The loop over the signal files; those that do not open are passed over.
def digitizationPass (input : PassInput F) (fuel : Nat) (files : List (Option (List (FileEntry F)))) (ion : IonState F) :
    Draw rng (Option (Pass F)) :=
  proceedAll (Pass.file input fuel) files (Pass.start input ion)

end

end Solgem
