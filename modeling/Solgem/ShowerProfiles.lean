import Solgem.Lib.Search
import Solgem.Lib.Words
import Solgem.ShowerCells
import Solgem.TextStreams

set_option autoImplicit false

namespace Solgem

open Lib

-- TString::Index. A search from -1 begins with the byte before the string.
def tIndex (before : Char) (text pat : List Char) (start : Int) : Int :=
  if start < 0 then
    match indexOf pat (before :: text) with
    | some i => (i : Int) - 1
    | none => -1
  else
    match indexOf pat (text.drop start.toNat) with
    | some i => start + i
    | none => -1

-- TString::operator()(start, len) as a string: empty for a start of -1.
def tSub (text : List Char) (start len : Int) : List Char :=
  if 0 ≤ start ∧ start < text.length ∧ 0 < len then (text.drop start.toNat).take len.toNat else []

-- A stream on TString::Data(), which ends at the first NUL.
def dataStream (text : List Char) : IStringStream := IStringStream.opened (text.takeWhile (fun c => decide (c ≠ '\x00')))

-- TString::Form with one %d, for a count.
def form (pfx : String) (n : Nat) : List Char := pfx.toList ++ Nat.toDigits 10 n

-- std::vector::resize; a size below 0 throws.
def resize {A : Type} (n : Int) (zero : A) (xs : List A) : Option (List A) :=
  if n < 0 then none else some (xs.take n.toNat ++ List.replicate (n.toNat - xs.length) zero)

-- The position of the line's end, and the line without its header.
def headerLine (before : Char) (currentfile stemp : List Char) : Int × List Char :=
  let istart := tIndex before currentfile stemp 0
  let newline := tIndex before currentfile ['\n'] istart
  let istop := if newline < 0 then (currentfile.length : Int) - 1 else newline
  (istop, removeAll stemp 0 (tSub currentfile istart (istop - istart)))

-- What stands between the line's end and the next header.
def profileData (before : Char) (currentfile header : List Char) (istart : Int) : List Char :=
  let next := tIndex before currentfile header istart
  let istop := if next < 0 then (currentfile.length : Int) - 1 else next
  tSub currentfile (istart + 1) (istop - istart - 1)

section
variable {F : Type} [Arith F]

structure ProfileLimits (F : Type) where
  nbins : Int
  min : F
  max : F

def readLimits (line : List Char) (old : ProfileLimits F) : ProfileLimits F :=
  let nbins := (dataStream line).readInt old.nbins
  let min := nbins.2.readDouble old.min
  let max := min.2.readDouble old.max
  ⟨nbins.1, min.1, max.1⟩

def readFractions : List F → IStringStream → List F
  | [], _ => []
  | old :: rest, sv =>
      let r := sv.readDouble old
      r.1 :: readFractions rest r.2

def readProfile (before : Char) (currentfile stemp header : List Char) (p : ShowerProfile F) : Option (ShowerProfile F) :=
  let line := headerLine before currentfile stemp
  let limits := readLimits line.2 ⟨p.nbins_mom, p.xmin, p.xmax⟩
  (resize (toInt32 (limits.nbins + 1)) 0.0 p.frac).map (fun frac =>
    ⟨limits.nbins, limits.min, limits.max, readFractions frac (dataStream (profileData before currentfile header line.1))⟩)

def blankProfile : ShowerProfile F := ⟨0, 0.0, 0.0, []⟩

-- The numbered profiles of one direction.
def readBins (before : Char) (currentfile : List Char) (pfx : String) (nbins : Int) (profiles : List (ShowerProfile F)) :
    Option (List (ShowerProfile F)) := do
  let profiles ← resize nbins blankProfile profiles
  profiles.zipIdx.mapM (fun entry => readProfile before currentfile (form pfx (entry.2 + 1)) "ECAL".toList entry.1)

-- load_shower_profiles on the content of the file, which is empty when it
-- cannot be opened. No result where a vector throws.
def loadShowerProfiles (before : Char) (currentfile : List Char) (t : ShowerTables F) : Option (Bool × ShowerTables F) := do
  let profxdefault ← readProfile before currentfile "ECAL_shower_profile_x_default".toList "ECAL_shower_profile".toList
    t.profxdefault
  let profydefault ← readProfile before currentfile "ECAL_shower_profile_y_default".toList "ECAL_shower_profile".toList
    t.profydefault
  let limitsx := readLimits (headerLine before currentfile "ECAL_shower_profiles_x".toList).2
    ⟨t.profx_nbins, t.profx_xmin, t.profx_xmax⟩
  let profx ← readBins before currentfile "ECAL_shower_profile_x_bin " limitsx.nbins t.profx
  let limitsy := readLimits (headerLine before currentfile "ECAL_shower_profiles_y".toList).2
    ⟨t.profy_nbins, t.profy_ymin, t.profy_ymax⟩
  let profy ← readBins before currentfile "ECAL_shower_profile_y_bin " limitsy.nbins t.profy
  return (true, {
    profxdefault := profxdefault
    profydefault := profydefault
    profx_nbins := limitsx.nbins
    profy_nbins := limitsy.nbins
    profx_xmin := limitsx.min
    profx_xmax := limitsx.max
    profy_ymin := limitsy.min
    profy_ymax := limitsy.max
    profx := profx
    profy := profy })

end

end Solgem
