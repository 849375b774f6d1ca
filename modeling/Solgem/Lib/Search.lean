import Mathlib.Data.List.Basic
import Mathlib.Data.List.Infix

set_option autoImplicit false

namespace Solgem.Lib

variable {A : Type} [DecidableEq A]

-- The first position of a pattern.
def indexOf (pat : List A) : List A → Option Nat
  | [] => if pat = [] then some 0 else none
  | a :: text => if pat <+: a :: text then some 0 else (indexOf pat text).map (· + 1)

-- Every occurrence of a pattern taken out, from the front; the number counts
-- what is left of the occurrence being skipped.
def removeAll (pat : List A) : Nat → List A → List A
  | _, [] => []
  | skip + 1, _ :: text => removeAll pat skip text
  | 0, a :: text => if pat <+: a :: text then removeAll pat (pat.length - 1) text else a :: removeAll pat 0 text

theorem index_here (pat text : List A) (here : pat <+: text) : indexOf pat text = some 0 := by
  cases text with
  | nil => exact if_pos (List.prefix_nil.mp here)
  | cons a text => exact if_pos here

theorem index_next (pat : List A) (a : A) (text : List A) (other : ¬ pat <+: a :: text) :
    indexOf pat (a :: text) = (indexOf pat text).map (· + 1) := if_neg other

theorem index_single (a : A) (front rest : List A) (absent : a ∉ front) :
    indexOf [a] (front ++ a :: rest) = some front.length := by
  induction front with
  | nil => exact index_here [a] _ (List.prefix_append [a] rest)
  | cons b front ih =>
      have other : ¬ [a] <+: b :: (front ++ a :: rest) := by
        intro here
        exact absent (List.mem_cons.mpr (.inl (List.cons_prefix_cons.mp here).1))
      rw [List.cons_append, index_next _ _ _ other, ih (fun member => absent (List.mem_cons_of_mem b member))]
      rfl

theorem index_single_none (a : A) (text : List A) (absent : a ∉ text) : indexOf [a] text = none := by
  induction text with
  | nil => rfl
  | cons b text ih =>
      have other : ¬ [a] <+: b :: text := by
        intro here
        exact absent (List.mem_cons.mpr (.inl (List.cons_prefix_cons.mp here).1))
      rw [index_next _ _ _ other, ih (fun member => absent (List.mem_cons_of_mem b member))]
      rfl

-- A pattern whose second letter marks it: where the mark is missing it cannot
-- begin.
section
variable {e m : A} {p : List A}

omit [DecidableEq A] in
theorem mark_front (a : A) (text : List A) (here : e :: m :: p <+: a :: text) : a = e ∧ text.head? = some m := by
  obtain ⟨first, rest⟩ := List.cons_prefix_cons.mp here
  refine ⟨first.symm, ?_⟩
  cases text with
  | nil => exact absurd (List.prefix_nil.mp rest) (List.cons_ne_nil m p)
  | cons b text => rw [List.head?_cons, (List.cons_prefix_cons.mp rest).1]

theorem index_quiet (quiet rest : List A) (absent : m ∉ quiet) (next : rest.head? ≠ some m) :
    indexOf (e :: m :: p) (quiet ++ rest) = (indexOf (e :: m :: p) rest).map (· + quiet.length) := by
  induction quiet with
  | nil => simp
  | cons a quiet ih =>
      have other : ¬ e :: m :: p <+: a :: (quiet ++ rest) := by
        intro here
        have marked := (mark_front a _ here).2
        cases quiet with
        | nil => exact next marked
        | cons b quiet =>
            rw [List.cons_append, List.head?_cons, Option.some_inj] at marked
            exact absent (by rw [marked]; simp)
      rw [List.cons_append, index_next _ _ _ other, ih (fun member => absent (List.mem_cons_of_mem a member)), Option.map_map]
      congr 1

-- A section that begins with the mark and has no other.
def Marked (e m : A) (sec : List A) : Prop := ∃ tail, sec = e :: m :: tail ∧ m ∉ tail

theorem index_past (distinct : e ≠ m) (sec rest : List A) (marked : Marked e m sec) (next : rest.head? ≠ some m)
    (other : ¬ e :: m :: p <+: sec ++ rest) :
    indexOf (e :: m :: p) (sec ++ rest) = (indexOf (e :: m :: p) rest).map (· + sec.length) := by
  obtain ⟨tail, rfl, absent⟩ := marked
  have second : ¬ e :: m :: p <+: m :: (tail ++ rest) := fun here => distinct (mark_front m _ here).1.symm
  rw [List.cons_append, List.cons_append] at other ⊢
  rw [index_next _ _ _ other, index_next _ _ _ second, index_quiet tail rest absent next, Option.map_map, Option.map_map]
  congr 1

-- The first section that has the pattern at its front.
theorem index_sections (distinct : e ≠ m) (before : List (List A)) (rest : List A) (marked : ∀ sec ∈ before, Marked e m sec)
    (other : ∀ sec ∈ before, ∀ after, ¬ e :: m :: p <+: sec ++ after) (here : e :: m :: p <+: rest) :
    indexOf (e :: m :: p) (before.flatten ++ rest) = some before.flatten.length := by
  have starts : ∀ sections : List (List A), (∀ sec ∈ sections, Marked e m sec) → (sections.flatten ++ rest).head? ≠ some m := by
    intro sections marked
    have first : (sections.flatten ++ rest).head? = some e := by
      cases sections with
      | nil =>
          obtain ⟨after, rfl⟩ := here
          rfl
      | cons sec sections =>
          obtain ⟨tail, rfl, _⟩ := marked sec List.mem_cons_self
          rfl
    rw [first]
    exact fun same => distinct (Option.some.inj same)
  induction before with
  | nil => exact index_here _ _ here
  | cons sec before ih =>
      have markedRest := fun other member => marked other (List.mem_cons_of_mem sec member)
      rw [List.flatten_cons, List.append_assoc,
        index_past distinct sec _ (marked sec List.mem_cons_self) (starts before markedRest) (other sec List.mem_cons_self _),
        ih markedRest (fun sec' member => other sec' (List.mem_cons_of_mem sec member)), List.length_append, Nat.add_comm]
      rfl

theorem remove_all_quiet (text : List A) (absent : m ∉ text) : removeAll (e :: m :: p) 0 text = text := by
  induction text with
  | nil => rfl
  | cons a text ih =>
      have other : ¬ e :: m :: p <+: a :: text := by
        intro here
        have marked := (mark_front a _ here).2
        exact absent (List.mem_cons_of_mem a (List.mem_of_mem_head? marked))
      rw [removeAll, if_neg other, ih (fun member => absent (List.mem_cons_of_mem a member))]

end

theorem remove_all_skip (pat text : List A) (skip : Nat) : removeAll pat skip text = removeAll pat 0 (text.drop skip) := by
  induction skip generalizing text with
  | zero => rfl
  | succ skip ih =>
      cases text with
      | nil => rw [List.drop_nil]; rfl
      | cons a text => exact ih text

-- A pattern at the front is taken out, and nothing after it.
theorem remove_all_front {e m : A} {p : List A} (text : List A) (absent : m ∉ text) :
    removeAll (e :: m :: p) 0 (e :: m :: p ++ text) = text := by
  have front : e :: m :: p <+: e :: (m :: p ++ text) := List.prefix_append (e :: m :: p) text
  rw [List.cons_append, removeAll, if_pos front, remove_all_skip]
  have skipped : (m :: p ++ text).drop ((e :: m :: p).length - 1) = text := List.drop_left
  rw [skipped, remove_all_quiet text absent]

end Solgem.Lib
