import Mathlib.Data.List.Basic
import Mathlib.Logic.Function.Basic

set_option autoImplicit false

namespace Solgem.Lib

-- A built-in array of n vectors. An access that leaves the array, or the
-- vector in its slot, has no result.
abbrev VecArray (A : Type) (n : Nat) := Vector (List A) n

variable {A : Type} {n : Nat}

namespace VecArray

def declared : VecArray A n := Vector.replicate n []

def updateSlot (t : VecArray A n) (k : Nat) (f : List A → Option (List A)) : Option (VecArray A n) :=
  if inside : k < n then (f t[k]).map (fun slot => t.set k slot inside) else none

def resizeSlot (t : VecArray A n) (k width : Nat) (zero : A) : Option (VecArray A n) :=
  t.updateSlot k (fun slot => some (slot.take width ++ List.replicate (width - slot.length) zero))

def modifyEntry (t : VecArray A n) (k i : Nat) (f : A → A) : Option (VecArray A n) :=
  t.updateSlot k (fun slot => if i < slot.length then some (slot.modify i f) else none)

def entry (t : VecArray A n) (k i : Nat) : Option A := (t[k]?).bind (fun slot => slot[i]?)

-- The array whose first m slots hold width entries each, and the others none.
def tabulate (m width : Nat) (f : Nat → Nat → A) : VecArray A n :=
  Vector.ofFn (fun k => if k.val < m then (List.range width).map (f k.val) else [])

theorem declared_eq (width : Nat) (f : Nat → Nat → A) : (declared : VecArray A n) = tabulate 0 width f := by
  ext k inside : 1
  simp [declared, tabulate]

theorem tabulate_slot (m width : Nat) (f : Nat → Nat → A) (k : Nat) (inside : k < n) :
    (tabulate m width f : VecArray A n)[k] = if k < m then (List.range width).map (f k) else [] := by
  simp [tabulate]

theorem tabulate_congr (m width : Nat) (f g : Nat → Nat → A) (same : ∀ k < m, ∀ i < width, f k i = g k i) :
    (tabulate m width f : VecArray A n) = tabulate m width g := by
  ext k inside : 1
  rw [tabulate_slot, tabulate_slot]
  by_cases filled : k < m
  · rw [if_pos filled, if_pos filled]
    exact List.map_congr_left (fun i member => same k filled i (List.mem_range.mp member))
  · rw [if_neg filled, if_neg filled]

theorem entry_tabulate (m width : Nat) (f : Nat → Nat → A) (k i : Nat) (filled : k < m) (room : m ≤ n) (below : i < width) :
    (tabulate m width f : VecArray A n).entry k i = some (f k i) := by
  have inside : k < n := by omega
  rw [entry, Vector.getElem?_eq_getElem inside, tabulate_slot, if_pos filled]
  simp [below]

theorem outside_none (t : VecArray A n) (k : Nat) (outside : n ≤ k) (f : List A → Option (List A)) : t.updateSlot k f = none := by
  rw [updateSlot, dif_neg (by omega)]

theorem resize_tabulate (m width : Nat) (f : Nat → Nat → A) (room : m < n) (zero : A) :
    (tabulate m width f : VecArray A n).resizeSlot m width zero =
      some (tabulate (m + 1) width (Function.update f m (fun _ => zero))) := by
  rw [resizeSlot, updateSlot, dif_pos room, tabulate_slot, if_neg (Nat.lt_irrefl m)]
  refine congrArg some ?_
  ext k inside : 1
  rw [Vector.getElem_set, tabulate_slot, tabulate_slot]
  by_cases here : m = k
  · subst here
    rw [if_pos rfl, if_pos (Nat.lt_succ_self m), Function.update_self]
    simp
  · rw [if_neg here, Function.update_of_ne (Ne.symm here)]
    by_cases filled : k < m
    · rw [if_pos filled, if_pos (Nat.lt_succ_of_lt filled)]
    · rw [if_neg filled, if_neg (by omega)]

theorem modify_tabulate (m width : Nat) (f : Nat → Nat → A) (k i : Nat) (filled : k < m) (room : m ≤ n) (below : i < width) (g : A → A) :
    (tabulate m width f : VecArray A n).modifyEntry k i g =
      some (tabulate m width (Function.update f k (Function.update (f k) i (g (f k i))))) := by
  have inside : k < n := by omega
  have entries : i < ((List.range width).map (f k)).length := by rwa [List.length_map, List.length_range]
  rw [modifyEntry, updateSlot, dif_pos inside, tabulate_slot, if_pos filled, if_pos entries]
  refine congrArg some ?_
  ext j slot : 1
  rw [Vector.getElem_set, tabulate_slot, tabulate_slot]
  by_cases here : k = j
  · subst here
    rw [if_pos rfl, if_pos filled, Function.update_self]
    apply List.ext_getElem
    · simp
    · intro e first second
      rw [List.getElem_modify, List.getElem_map, List.getElem_map, List.getElem_range]
      by_cases same : i = e
      · rw [if_pos same, ← same, Function.update_self]
      · rw [if_neg same, Function.update_of_ne (Ne.symm same)]
  · rw [if_neg here, Function.update_of_ne (Ne.symm here)]

-- A loop whose steps stay in bounds goes through and leaves every slot its
-- size.
theorem loop_in_bounds {B : Type} (m width : Nat) (step : VecArray A n → B → Option (VecArray A n)) (bs : List B)
    (each : ∀ b ∈ bs, ∀ f, ∃ f', step (tabulate m width f) b = some (tabulate m width f')) (f : Nat → Nat → A) :
    ∃ f', bs.foldlM step (tabulate m width f) = some (tabulate m width f') := by
  induction bs generalizing f with
  | nil => exact ⟨f, rfl⟩
  | cons b rest ih =>
      obtain ⟨f', passed⟩ := each b (List.mem_cons_self ..) f
      rw [List.foldlM_cons, passed]
      exact ih (fun c member => each c (List.mem_cons_of_mem b member)) f'

-- One pass over the first count slots, at entry i of each.
theorem column_loop (m width : Nat) (f : Nat → Nat → A) (room : m ≤ n) (i : Nat) (below : i < width) (g : Nat → A → A) (count : Nat)
    (slots : count ≤ m) :
    (List.range count).foldlM (fun t k => t.modifyEntry k i (g k)) (tabulate m width f : VecArray A n) =
      some (tabulate m width (fun k e => if k < count ∧ e = i then g k (f k e) else f k e)) := by
  induction count with
  | zero => simp
  | succ count ih =>
      rw [List.range_succ, List.foldlM_append, ih (by omega)]
      simp only [Option.bind_eq_bind, Option.bind_some, List.foldlM_cons, List.foldlM_nil]
      rw [modify_tabulate m width _ count i (by omega) room below]
      refine congrArg some (tabulate_congr m width _ _ (fun k _ e _ => ?_))
      by_cases slot : k = count
      · subst slot
        rw [Function.update_self]
        by_cases here : e = i
        · subst here
          simp
        · simp [here]
      · rw [Function.update_of_ne slot]
        have order : k < count + 1 ↔ k < count := by omega
        simp only [order]

theorem resize_loop (width count : Nat) (room : count ≤ n) (zero : A) :
    (List.range count).foldlM (fun t k => t.resizeSlot k width zero) (declared : VecArray A n) =
      some (tabulate count width (fun _ _ => zero)) := by
  induction count with
  | zero => exact congrArg some (declared_eq width _)
  | succ count ih =>
      rw [List.range_succ, List.foldlM_append, ih (by omega)]
      simp only [Option.bind_eq_bind, Option.bind_some, List.foldlM_cons, List.foldlM_nil]
      rw [resize_tabulate count width _ (by omega)]
      refine congrArg some (tabulate_congr (count + 1) width _ _ (fun k _ e _ => ?_))
      by_cases slot : k = count
      · rw [slot, Function.update_self]
      · rw [Function.update_of_ne slot]

theorem resize_overrun (width count : Nat) (beyond : n < count) (zero : A) :
    (List.range count).foldlM (fun t k => t.resizeSlot k width zero) (declared : VecArray A n) = none := by
  induction count with
  | zero => omega
  | succ count ih =>
      rw [List.range_succ, List.foldlM_append]
      cases Nat.lt_or_ge n count with
      | inl earlier =>
          rw [ih earlier]
          rfl
      | inr last =>
          rw [resize_loop width count (by omega)]
          exact congrArg (fun t => Option.bind t some) (outside_none (tabulate count width (fun _ _ => zero)) count (by omega) _)

end VecArray

end Solgem.Lib
