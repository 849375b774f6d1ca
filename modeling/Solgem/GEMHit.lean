import Solgem.Arith
import Solgem.Lib.Words

set_option autoImplicit false

namespace Solgem

open Lib

-- TArray: AddAt and At check the index, an access out of bounds is reported
-- and has no effect, respectively reads zero.
def arrayNew {A : Type} (n : Int) (zero : A) : List A := List.replicate n.toNat zero

def addAt {A : Type} (xs : List A) (value : A) (i : Int) : List A :=
  if 0 ≤ i then xs.set i.toNat value else xs

def arrayAt {A : Type} (xs : List A) (zero : A) (i : Int) : A :=
  if 0 ≤ i then xs.getD i.toNat zero else zero

-- TSBSGEMHit: the strips of one readout plane activated by one avalanche.
structure GEMHit (F : Type) where
  fIdx : List Int
  fADC : List Int
  fCharge : List F
  fTime : F
  fNsample : Int
  fHitCharge : F
  fTotalADC : Int
  fSize : Int
deriving DecidableEq

namespace GEMHit

variable {F : Type} [Arith F]

-- The constructor takes both counts as Short_t.
def new (n nsample : Int) : GEMHit F where
  fSize := toInt16 n
  fNsample := toInt16 nsample
  fIdx := arrayNew (toInt16 n) 0
  fCharge := arrayNew (toInt16 n) 0.0
  fTime := -1.0
  fADC := arrayNew (toInt16 nsample * toInt16 n) 0
  fHitCharge := 0.0
  fTotalADC := 0

def addStripAt (h : GEMHit F) (idx n : Int) : GEMHit F :=
  { h with fIdx := addAt h.fIdx (toInt16 idx) (toInt16 n) }

def addChargeAt (h : GEMHit F) (val : F) (n : Int) : GEMHit F :=
  { h with fCharge := addAt h.fCharge val (toInt16 n) }

def addSampleAt (h : GEMHit F) (val sample n : Int) : GEMHit F :=
  { h with
    fADC := addAt h.fADC val (toInt16 n * h.fNsample + toInt16 sample)
    fTotalADC := h.fTotalADC + val }

def setTime (h : GEMHit F) (val : F) : GEMHit F := { h with fTime := Arith.single val }
def setHitCharge (h : GEMHit F) (val : F) : GEMHit F := { h with fHitCharge := Arith.single val }
def setSize (h : GEMHit F) (n : Int) : GEMHit F := { h with fSize := toInt16 n }

def getIdx (h : GEMHit F) (n : Int) : Int := arrayAt h.fIdx 0 (toInt16 n)
def getADC (h : GEMHit F) (n sample : Int) : Int := arrayAt h.fADC 0 (toInt16 n * h.fNsample + toInt16 sample)
def getCharge (h : GEMHit F) (n : Int) : F := arrayAt h.fCharge 0.0 (toInt16 n)

-- The strip indices a reader of the hit goes through, in order.
def strips (h : GEMHit F) : List Int := (List.range h.fSize.toNat).map (fun j : Nat => h.getIdx j)

omit [Arith F]

section
variable (h : GEMHit F) (val : F) (idx n : Int)

@[simp] theorem add_strip_at_idx : (h.addStripAt idx n).fIdx = addAt h.fIdx (toInt16 idx) (toInt16 n) := by
  rw [addStripAt]

@[simp] theorem add_strip_at_adc : (h.addStripAt idx n).fADC = h.fADC := by
  rw [addStripAt]

@[simp] theorem add_strip_at_nsample : (h.addStripAt idx n).fNsample = h.fNsample := by
  rw [addStripAt]

@[simp] theorem add_strip_at_total : (h.addStripAt idx n).fTotalADC = h.fTotalADC := by
  rw [addStripAt]

@[simp] theorem add_sample_at_idx (a sample : Int) : (h.addSampleAt a sample n).fIdx = h.fIdx := by
  rw [addSampleAt]

@[simp] theorem add_sample_at_adc (a sample : Int) :
    (h.addSampleAt a sample n).fADC = addAt h.fADC a (toInt16 n * h.fNsample + toInt16 sample) := by
  rw [addSampleAt]

@[simp] theorem add_sample_at_nsample (a sample : Int) : (h.addSampleAt a sample n).fNsample = h.fNsample := by
  rw [addSampleAt]

@[simp] theorem add_sample_at_total (a sample : Int) : (h.addSampleAt a sample n).fTotalADC = h.fTotalADC + a := by
  rw [addSampleAt]

@[simp] theorem add_charge_at_idx : (h.addChargeAt val n).fIdx = h.fIdx := by
  rw [addChargeAt]

@[simp] theorem add_charge_at_adc : (h.addChargeAt val n).fADC = h.fADC := by
  rw [addChargeAt]

@[simp] theorem add_charge_at_nsample : (h.addChargeAt val n).fNsample = h.fNsample := by
  rw [addChargeAt]

@[simp] theorem add_charge_at_total : (h.addChargeAt val n).fTotalADC = h.fTotalADC := by
  rw [addChargeAt]

end

theorem get_idx_nat (h : GEMHit F) (j : Nat) (small : j ≤ 32767) : h.getIdx j = h.fIdx.getD j 0 := by
  rw [getIdx, int16_exact _ (by omega) (by omega), arrayAt, if_pos (Int.natCast_nonneg j), Int.toNat_natCast]

@[simp] theorem set_size_idx (h : GEMHit F) (n : Int) : (h.setSize n).fIdx = h.fIdx := by
  rw [setSize]

@[simp] theorem set_size_adc (h : GEMHit F) (n : Int) : (h.setSize n).fADC = h.fADC := by
  rw [setSize]

@[simp] theorem set_size_size (h : GEMHit F) (n : Int) : (h.setSize n).fSize = toInt16 n := by
  rw [setSize]

end GEMHit

end Solgem
