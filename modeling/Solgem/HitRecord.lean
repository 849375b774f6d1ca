import Mathlib.Logic.Function.Basic
import Solgem.Arith

set_option autoImplicit false

namespace Solgem

-- g4sbshitdata: an array of fSize doubles with a fill bit for each index.
structure G4SBSHitData (F : Type) where
  fDetID : Int
  fSize : Nat
  fFillbits : BitVec 64
  fData : Nat → F

namespace G4SBSHitData

variable {F : Type} [Arith F]

-- 1<<idx is an int, shifted by idx modulo 32, and then widened to long long.
def bit (idx : Nat) : BitVec 64 := ((1#32) <<< (idx % 32)).signExtend 64

-- The program exits for more than 64 doubles. The array that new double[size]
-- gives holds whatever is in memory.
def new (memory : Nat → F) (detid : Int) (size : Nat) : Option (G4SBSHitData F) :=
  if 64 < size then none
  else
    some
      { fDetID := detid
        fSize := size
        fFillbits := 1#64
        fData := Function.update memory 0 3.1415927 }

def setData (h : G4SBSHitData F) (idx : Nat) (data : F) : G4SBSHitData F :=
  if h.fSize ≤ idx then h
  else { h with fFillbits := h.fFillbits ||| bit idx, fData := Function.update h.fData idx data }

def getData (h : G4SBSHitData F) (idx : Nat) : F :=
  if h.fSize ≤ idx then 1e9
  else if h.fFillbits &&& bit idx = 0#64 then 1e9
  else h.fData idx

-- The loop that copies a temporary array into a record.
def setAll (h : G4SBSHitData F) (values : List F) : G4SBSHitData F :=
  values.zipIdx.foldl (fun (h : G4SBSHitData F) (entry : F × Nat) => h.setData entry.2 entry.1) h

theorem bit_nonzero (idx : Nat) : bit idx ≠ 0#64 := by
  have all : ∀ k < 32, ((1#32) <<< k).signExtend 64 ≠ 0#64 := by decide
  exact all (idx % 32) (Nat.mod_lt idx (by decide))

theorem bits_stay_set (bits mask other : BitVec 64) (set : bits &&& mask ≠ 0#64) : (bits ||| other) &&& mask ≠ 0#64 := by
  intro clear
  apply set
  ext i inside
  have unset := congrArg (fun b : BitVec 64 => b.getLsbD i) clear
  simp at unset ⊢
  grind

omit [Arith F] in
theorem set_data_size (h : G4SBSHitData F) (idx : Nat) (data : F) : (h.setData idx data).fSize = h.fSize := by
  rw [setData]
  split <;> rfl

-- What the copying loop leaves alone, and what it writes.
omit [Arith F] in
theorem set_all_entries (values : List F) (start : Nat) (h : G4SBSHitData F) (room : start + values.length ≤ h.fSize) :
    let filled := (values.zipIdx start).foldl (fun (h : G4SBSHitData F) (entry : F × Nat) => h.setData entry.2 entry.1) h
    filled.fSize = h.fSize ∧
      (∀ idx < start, filled.fData idx = h.fData idx) ∧
      (∀ idx, h.fFillbits &&& bit idx ≠ 0#64 → filled.fFillbits &&& bit idx ≠ 0#64) ∧
      ∀ (k : Nat) (data : F), values[k]? = some data →
        filled.fData (start + k) = data ∧ filled.fFillbits &&& bit (start + k) ≠ 0#64 := by
  induction values generalizing start h with
  | nil => exact ⟨rfl, fun _ _ => rfl, fun _ set => set, fun _ _ found => by cases found⟩
  | cons data rest ih =>
      rw [List.length_cons] at room
      have inside : ¬ h.fSize ≤ start := by omega
      have written : h.setData start data =
          { h with fFillbits := h.fFillbits ||| bit start, fData := Function.update h.fData start data } := if_neg inside
      obtain ⟨size, before, bits, entries⟩ := ih (start + 1) (h.setData start data) (by rw [set_data_size]; omega)
      simp only [List.zipIdx_cons, List.foldl_cons]
      refine ⟨size.trans (set_data_size h start data), fun idx below => ?_, fun idx set => ?_, fun k data' found => ?_⟩
      · rw [before idx (by omega), written]
        exact Function.update_of_ne (Nat.ne_of_lt below) _ _
      · refine bits idx ?_
        rw [written]
        exact bits_stay_set h.fFillbits (bit idx) (bit start) set
      · cases k with
        | zero =>
            cases found
            refine ⟨(before start (Nat.lt_succ_self start)).trans ?_, bits start ?_⟩
            · rw [written]
              exact Function.update_self start data h.fData
            · rw [written, BitVec.or_comm]
              exact bits_stay_set (bit start) (bit start) h.fFillbits (by rw [BitVec.and_self]; exact bit_nonzero start)
        | succ k =>
            rw [show start + (k + 1) = start + 1 + k by omega]
            exact entries k data' found

theorem set_all_get (h : G4SBSHitData F) (values : List F) (room : values.length ≤ h.fSize) (idx : Nat) (data : F)
    (found : values[idx]? = some data) : (h.setAll values).getData idx = data := by
  obtain ⟨size, _, _, entries⟩ := set_all_entries values 0 h (by omega)
  obtain ⟨stored, set⟩ := entries idx data found
  rw [Nat.zero_add] at stored set
  have inside := (List.getElem?_eq_some_iff.mp found).1
  rw [getData, setAll, size, if_neg (by omega), if_neg set, stored]

end G4SBSHitData

end Solgem
