import Mathlib.Data.List.GetD
import Solgem.DBManager
import Solgem.SimEvent
import Solgem.Lib.FirstWins
import Solgem.Lib.MixedRadix

set_option autoImplicit false

namespace Solgem

open Lib

variable {F : Type}

-- SIM_MAXSLOT is the smaller of the decoder library's slot count and 30.
structure SlotLayout where
  SIM_MAXSLOT : Int
  positive : 1 ≤ SIM_MAXSLOT

structure RocAddress where
  crate : Int
  slot : Int
  chan : Int
deriving DecidableEq

def stripToROCD (m : DBManager F) (slots : SlotLayout) (s_plane s_module s_proj s_chan : Int) : Option RocAddress :=
  (m.getNModule (s_plane - 1)).map (fun nmodule =>
    let ix := s_proj + 2 * (s_module + nmodule * s_plane)
    ⟨ix.tdiv slots.SIM_MAXSLOT, ix.tmod slots.SIM_MAXSLOT, s_chan.tmod m.fChanPerSlot⟩)

def makeROCKey (m : DBManager F) (slots : SlotLayout) (a : RocAddress) : Int :=
  a.chan + m.fChanPerSlot * (a.slot + slots.SIM_MAXSLOT * a.crate)

def stripFromROC (m : DBManager F) (slots : SlotLayout) (fStripMap : List (Int × Nat)) (a : RocAddress) : Int :=
  match fStripMap.lookup (makeROCKey m slots a) with
  | none => -1
  | some i => i

inductive LoadError where
  | badAccess
  | hedErr
  | assertFailed
deriving DecidableEq

-- loadData belongs to the decoder library: it may refuse a sample.
def loadStrip (m : DBManager F) (slots : SlotLayout) (loadData : RocAddress → Int → Bool)
    (fStripMap : List (Int × Nat)) (entry : DigiGEMStrip F × Nat) : Except LoadError (List (Int × Nat)) :=
  let (s, i) := entry
  match stripToROCD m slots s.fPlane s.fModule s.fProj s.fChan with
  | none => .error .badAccess
  | some address =>
      if (s.fADC.take s.fNsamp).all (loadData address) then
        match insertNew fStripMap (makeROCKey m slots address) i with
        | none => .error .assertFailed
        | some next => .ok next
      else .error .hedErr

-- The strip loop of DoLoadEvent, entered with fStripMap cleared.
def loadStrips (m : DBManager F) (slots : SlotLayout) (loadData : RocAddress → Int → Bool)
    (fGEMStrips : List (DigiGEMStrip F)) : Except LoadError (List (Int × Nat)) :=
  fGEMStrips.zipIdx.foldlM (loadStrip m slots loadData) []

-- Where a strip is in the detector.
structure StripID where
  plane : Int
  module : Int
  proj : Int
  chan : Int
deriving DecidableEq

def DigiGEMStrip.id (s : DigiGEMStrip F) : StripID := ⟨s.fPlane, s.fModule, s.fProj, s.fChan⟩

def StripID.toROCD (s : StripID) (m : DBManager F) (slots : SlotLayout) : Option RocAddress :=
  stripToROCD m slots s.plane s.module s.proj s.chan

def StripID.Exists (s : StripID) (m : DBManager F) : Prop :=
  0 ≤ s.plane ∧ (∃ nmodule, m.fNModule[s.plane.toNat]? = some nmodule ∧ 0 ≤ s.module ∧ s.module < nmodule) ∧
    (s.proj = 0 ∨ s.proj = 1) ∧ 0 ≤ s.chan ∧ s.chan < m.fChanPerSlot

-- The first of the slots of a plane, in pairs of projections: the number of
-- modules of the plane before, times the plane number.
def slotStart (nmodule : List Int) (p : Nat) : Int := if p = 0 then 0 else nmodule.getD (p - 1) 0 * p

def SlotRangesApart (nmodule : List Int) : Prop :=
  ∀ p q, p < q → q < nmodule.length → 0 < nmodule.getD p 0 → 0 < nmodule.getD q 0 →
    RangesApart (slotStart nmodule p) (nmodule.getD p 0) (slotStart nmodule q) (nmodule.getD q 0)

theorem strip_address (m : DBManager F) (slots : SlotLayout) (s : StripID) (present : s.Exists m) :
    s.toROCD m slots = some
      (let ix := s.proj + 2 * (s.module + slotStart m.fNModule s.plane.toNat)
       ⟨ix.tdiv slots.SIM_MAXSLOT, ix.tmod slots.SIM_MAXSLOT, s.chan⟩) := by
  obtain ⟨low, ⟨nmodule, counted, _, _⟩, _, first, last⟩ := present
  have channel : s.chan.tmod m.fChanPerSlot = s.chan := Int.tmod_eq_of_lt first last
  have bound := (List.getElem?_eq_some_iff.mp counted).1
  have start : (m.getNModule (s.plane - 1)).map (fun n => n * s.plane) = some (slotStart m.fNModule s.plane.toNat) := by
    by_cases zero : s.plane = 0
    · simp [zero, DBManager.getNModule, slotStart]
    · have before : ¬ s.plane - 1 < 0 := by omega
      have previous : (s.plane - 1).toNat = s.plane.toNat - 1 := by omega
      have positive : s.plane.toNat ≠ 0 := by omega
      have inside : s.plane.toNat - 1 < m.fNModule.length := by omega
      have plane : (s.plane.toNat : Int) = s.plane := by omega
      rw [DBManager.getNModule, if_neg before, previous, List.getElem?_eq_getElem inside, slotStart, if_neg positive,
        List.getD_eq_getElem _ _ inside, plane]
      rfl
  obtain ⟨n, found, product⟩ := Option.map_eq_some_iff.mp start
  rw [StripID.toROCD, stripToROCD, found, Option.map_some, product, channel]

theorem strip_address_inj (m : DBManager F) (slots : SlotLayout) (s t : StripID) (present : s.Exists m)
    (present' : t.Exists m) :
    s.toROCD m slots = t.toROCD m slots ↔
      s.proj = t.proj ∧ s.module + slotStart m.fNModule s.plane.toNat = t.module + slotStart m.fNModule t.plane.toNat ∧
        s.chan = t.chan := by
  rw [strip_address m slots s present, strip_address m slots t present']
  constructor
  · intro same
    simp only [Option.some.injEq, RocAddress.mk.injEq] at same
    obtain ⟨crate, slot, chan⟩ := same
    have index := quotient_remainder_inj _ _ _ crate slot
    have projections := present.2.2.1
    have projections' := present'.2.2.1
    omega
  · rintro ⟨proj, module, chan⟩
    rw [proj, module, chan]

end Solgem
