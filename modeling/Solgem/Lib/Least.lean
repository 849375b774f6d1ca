import Mathlib.Logic.Function.Basic
import Mathlib.Order.RelClasses
import Solgem.Lib.Runs

set_option autoImplicit false

namespace Solgem.Lib

variable {F : Type} [LT F]

-- The least entry of a list, as far as the order tells entries apart.
def Least (m : F) (xs : List F) : Prop := m ∈ xs ∧ ∀ x ∈ xs, ¬ x < m

theorem least_singleton [Std.Asymm (LT.lt : F → F → Prop)] (m : F) : Least m [m] := by
  refine ⟨List.mem_singleton_self m, fun x member => ?_⟩
  rw [List.mem_singleton.mp member]
  exact irrefl_of LT.lt m

variable [DecidableLT F]

def lesser (a b : F) : F := if a < b then a else b

theorem lesser_idem (a b : F) : lesser (lesser a b) b = lesser a b := by
  by_cases below : a < b
  · simp [lesser, below]
  · simp [lesser, below]

section
variable [Std.Asymm (LT.lt : F → F → Prop)]

theorem lesser_not_later (a b : F) : ¬ a < lesser a b := by
  by_cases below : a < b
  · rw [lesser, if_pos below]
    exact irrefl_of LT.lt a
  · rwa [lesser, if_neg below]

-- Copies of one new entry leave the lesser of it and the least so far.
theorem least_append [IsOrderConnected F LT.lt] (m x : F) (xs ys : List F) (least : Least m xs) (copies : ∀ y ∈ ys, y = x) (entered : ys ≠ []) :
    Least (lesser m x) (xs ++ ys) := by
  obtain ⟨y, first⟩ := List.exists_mem_of_ne_nil ys entered
  have member : x ∈ ys := copies y first ▸ first
  by_cases below : m < x
  · rw [lesser, if_pos below]
    refine ⟨List.mem_append_left ys least.1, fun z listed => ?_⟩
    cases List.mem_append.mp listed with
    | inl old => exact least.2 z old
    | inr new =>
        rw [copies z new]
        exact asymm_of LT.lt below
  · rw [lesser, if_neg below]
    refine ⟨List.mem_append_right xs member, fun z listed => ?_⟩
    cases List.mem_append.mp listed with
    | inl old => exact IsOrderConnected.neg_trans (least.2 z old) below
    | inr new =>
        rw [copies z new]
        exact irrefl_of LT.lt x

end

section
variable {J K : Type} [DecidableEq K]

-- A table entry is replaced by the lesser of a new value and an entry that may
-- be another one.
def lower (source target : J → K) (x : F) (table : K → F) (j : J) : K → F :=
  Function.update table (target j) (lesser (table (source j)) x)

-- Where the two entries are alike up to the new value, a loop lowers exactly
-- the targets; a second visit changes nothing.
theorem lower_loop (source target : J → K) (x : F) (table : K → F) (past : List K) (rest : List J)
    (alike : ∀ j ∈ rest, lesser (table (source j)) x = lesser (table (target j)) x) (now : K → F)
    (reached : ∀ k, now k = if k ∈ past then lesser (table k) x else table k) (k : K) :
    rest.foldl (lower source target x) now k = if k ∈ past ++ rest.map target then lesser (table k) x else table k := by
  induction rest generalizing past now with
  | nil => rw [List.map_nil, List.append_nil, List.foldl_nil, reached]
  | cons j rest ih =>
      have settled : lesser (now (source j)) x = lesser (table (target j)) x := by
        rw [reached, ← alike j (List.mem_cons_self ..)]
        split
        · exact lesser_idem _ x
        · rfl
      have later := ih (past ++ [target j]) (fun i member => alike i (List.mem_cons_of_mem j member))
        (lower source target x now j) ?_
      · rwa [List.append_assoc, List.singleton_append] at later
      · intro k
        rw [lower, settled]
        by_cases here : k = target j
        · subst here
          rw [Function.update_self, if_pos (List.mem_append_right _ (List.mem_singleton_self _))]
        · rw [Function.update_of_ne here, reached]
          simp [here]

end

-- An interval is widened to hold one more value.
def widen {A : Type} (f : A → Int) (acc : Int × Int) (x : A) : Int × Int :=
  (if f x < acc.1 then f x else acc.1, if acc.2 < f x then f x else acc.2)

theorem widen_loop {A : Type} (f : A → Int) (xs : List A) (low high : Int) (r : Int × Int) (result : xs.foldl (widen f) (low, high) = r) :
    (∀ x ∈ xs, r.1 ≤ f x ∧ f x ≤ r.2) ∧ (r.1 = low ∨ ∃ x ∈ xs, r.1 = f x) ∧ (r.2 = high ∨ ∃ x ∈ xs, r.2 = f x) := by
  have widened := foldl_invariant (widen f) (fun past (acc : Int × Int) =>
      (∀ x ∈ past, acc.1 ≤ f x ∧ f x ≤ acc.2) ∧ (acc.1 = low ∨ ∃ x ∈ past, acc.1 = f x) ∧
        (acc.2 = high ∨ ∃ x ∈ past, acc.2 = f x)) [] xs ?_ (low, high) ⟨fun _ member => absurd member List.not_mem_nil, .inl rfl, .inl rfl⟩
  · rw [result, List.nil_append] at widened
    exact widened
  · intro past x acc _ kept
    obtain ⟨inside, least, greatest⟩ := kept
    have older : ∀ y ∈ past, y ∈ past ++ [x] := fun y member => List.mem_append_left [x] member
    have newest : x ∈ past ++ [x] := List.mem_append_right past (List.mem_singleton_self x)
    refine ⟨fun y member => ?_, ?_, ?_⟩
    · cases List.mem_append.mp member with
      | inl old =>
          have bounds := inside y old
          rw [widen]
          constructor <;> split <;> omega
      | inr new =>
          rw [List.mem_singleton.mp new]
          rw [widen]
          constructor <;> split <;> omega
    · dsimp only [widen]
      split
      · exact .inr ⟨x, newest, rfl⟩
      · exact least.imp_right (fun ⟨y, member, same⟩ => ⟨y, older y member, same⟩)
    · dsimp only [widen]
      split
      · exact .inr ⟨x, newest, rfl⟩
      · exact greatest.imp_right (fun ⟨y, member, same⟩ => ⟨y, older y member, same⟩)

end Solgem.Lib
