import Mathlib.Algebra.BigOperators.Group.List.Basic
import Mathlib.Algebra.Ring.Int.Defs
import Mathlib.Data.List.Basic

set_option autoImplicit false

namespace Solgem.Lib

variable {E K B : Type} [DecidableEq K]

-- A journal is the list of entries written so far; each entry belongs to one
-- key. A store that is kept up to date entry by entry is a function of it.
def entriesAt (key : E → K) (k : K) (journal : List E) : List E :=
  journal.filter (fun e => key e = k)

def totalAt (key : E → K) (amount : E → Int) (k : K) (journal : List E) : Int :=
  ((entriesAt key k journal).map amount).sum

def listedAt (key : E → K) (item : E → Option B) (k : K) (journal : List E) : List B :=
  (entriesAt key k journal).filterMap item

theorem entries_at_append (key : E → K) (k : K) (journal : List E) (e : E) :
    entriesAt key k (journal ++ [e]) = entriesAt key k journal ++ if key e = k then [e] else [] := by
  by_cases same : key e = k <;> simp [entriesAt, same]

theorem total_at_append (key : E → K) (amount : E → Int) (k : K) (journal : List E) (e : E) :
    totalAt key amount k (journal ++ [e]) = totalAt key amount k journal + if key e = k then amount e else 0 := by
  rw [totalAt, entries_at_append]
  by_cases same : key e = k <;> simp [totalAt, same]

theorem listed_at_append (key : E → K) (item : E → Option B) (k : K) (journal : List E) (e : E) :
    listedAt key item k (journal ++ [e]) =
      listedAt key item k journal ++ if key e = k then (item e).toList else [] := by
  rw [listedAt, entries_at_append, List.filterMap_append]
  by_cases same : key e = k
  · cases found : item e <;> simp [listedAt, same, found]
  · simp [listedAt, same]

-- The order of a journal does not matter to its totals, and to its listings
-- only as far as their order goes.
theorem total_at_perm (key : E → K) (amount : E → Int) (k : K) {journal journal' : List E} (perm : journal.Perm journal') :
    totalAt key amount k journal = totalAt key amount k journal' :=
  ((perm.filter _).map amount).sum_eq

theorem listed_at_perm (key : E → K) (item : E → Option B) (k : K) {journal journal' : List E} (perm : journal.Perm journal') :
    (listedAt key item k journal).Perm (listedAt key item k journal') :=
  (perm.filter _).filterMap item

theorem mem_listed_at (key : E → K) (item : E → Option B) (k : K) (journal : List E) (b : B) :
    b ∈ listedAt key item k journal ↔ ∃ e ∈ journal, key e = k ∧ item e = some b := by
  simp only [listedAt, entriesAt, List.mem_filterMap, List.mem_filter, decide_eq_true_eq, and_assoc]

-- Looked up by its key, an item is listed as often as the key is among the
-- entries looked up by the item.
theorem listed_at_count [DecidableEq B] (key : E → K) (item : E → Option B) (k : K) (b : B) (journal : List E) :
    (listedAt key item k journal).count b = ((entriesAt item (some b) journal).map key).count k := by
  induction journal with
  | nil => rfl
  | cons e rest ih =>
      rw [listedAt, entriesAt] at ih ⊢
      rw [entriesAt] at ih ⊢
      cases found : item e with
      | none => by_cases same : key e = k <;> simp [same, found, ih]
      | some c =>
          by_cases same : key e = k
          · by_cases here : c = b <;> simp [same, found, here, ih]
          · by_cases here : c = b <;> simp [same, found, here, ih]

theorem total_at_sum (key : E → K) (amount : Nat → E → Int) (n : Nat) (k : K) (journal : List E) :
    totalAt key (fun e => ((List.range n).map (fun i => amount i e)).sum) k journal =
      ((List.range n).map (fun i => totalAt key (amount i) k journal)).sum := by
  induction n with
  | zero => simp [totalAt]
  | succ n ih =>
      have split : totalAt key (fun e => ((List.range (n + 1)).map (fun i => amount i e)).sum) k journal =
          totalAt key (fun e => ((List.range n).map (fun i => amount i e)).sum) k journal +
            totalAt key (amount n) k journal := by
        simp only [totalAt, ← List.sum_map_add, List.range_succ, List.map_append, List.sum_append,
          List.map_cons, List.map_nil, List.sum_singleton]
      rw [split, ih, List.range_succ, List.map_append, List.sum_append]
      simp

end Solgem.Lib
