import Solgem.DecodedEvents
import Solgem.GEMLookups
import Solgem.HitAttribution
import Solgem.RocLookup

set_option autoImplicit false

namespace Solgem

open Lib

variable {F : Type}

-- With equal module counts the slots of a plane start behind all modules of
-- the planes before it.
theorem slot_start_uniform (info : GeneralInfo) (n : Int) (counts : ∀ count ∈ info.nmodule, 0 ≤ count)
    (uniform : ∀ p, p + 1 < info.nmodule.length → info.nmodule[p]? = some n) (p : Nat) (row : p < info.nmodule.length) :
    slotStart info.nmodule p = info.modulesBefore p := by
  have sum : ∀ q, q < info.nmodule.length → (info.modulesBefore q : Int) = n * q := by
    intro q
    induction q with
    | zero => simp [GeneralInfo.modulesBefore]
    | succ q ih =>
        intro room
        have listed := uniform q room
        have positive := counts n (List.mem_of_getElem? listed)
        have count : (info.count q : Int) = n := by
          rw [GeneralInfo.count, List.getD_eq_getElem?_getD, listed, Option.getD_some]
          omega
        have before := ih (by omega)
        rw [modules_before_rows] at before ⊢
        rw [List.range_succ, List.map_append, List.sum_append, List.map_singleton, List.sum_singleton, Nat.cast_add, before, count,
          Nat.cast_succ, Int.mul_add, Int.mul_one]
  rw [sum p row, slotStart]
  cases p with
  | zero => simp
  | succ p =>
      rw [if_neg (Nat.succ_ne_zero p), Nat.add_sub_cancel, List.getD_eq_getElem?_getD, uniform p row, Option.getD_some]

theorem strip_slot_below (info : GeneralInfo) (m : DBManager F) (loaded : DBManager.loadGeneralInfo info = some m) (n : Int)
    (counts : ∀ count ∈ info.nmodule, 0 ≤ count) (uniform : ∀ p, p + 1 < info.nmodule.length → info.nmodule[p]? = some n)
    (s : StripID) (present : s.Exists m) :
    0 ≤ s.module + slotStart m.fNModule s.plane.toNat ∧ s.module + slotStart m.fNModule s.plane.toNat < info.modulesTotal := by
  obtain ⟨listed, _, _⟩ := DBManager.load_general_info_fields info m loaded
  obtain ⟨_, ⟨count, found, low, high⟩, _⟩ := present
  rw [listed] at found ⊢
  have row := (List.getElem?_eq_some_iff.mp found).1
  have total : info.modulesTotal = (info.nmodule.map Int.toNat).sum := by
    rw [GeneralInfo.modulesTotal, GeneralInfo.modulesBefore, List.take_length]
  have split := modules_before_bound info s.plane.toNat count found
  rw [slot_start_uniform info n counts uniform _ row, total]
  omega

end Solgem
