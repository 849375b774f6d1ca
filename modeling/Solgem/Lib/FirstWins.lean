import Mathlib.Data.List.Nodup

set_option autoImplicit false

namespace Solgem.Lib

variable {K : Type} [DecidableEq K]

-- A map whose insert refuses a key that is already there.
def insertNew {V : Type} (m : List (K × V)) (key : K) (value : V) : Option (List (K × V)) :=
  if (m.lookup key).isSome then none else some ((key, value) :: m)

-- The map sends every key of a list to the position it stands at.
def Indexes (m : List (K × Nat)) (keys : List K) : Prop :=
  ∀ key i, m.lookup key = some i ↔ keys[i]? = some key

theorem indexes_nil : Indexes ([] : List (K × Nat)) [] := by
  intro key i
  simp

theorem indexes_absent (m : List (K × Nat)) (keys : List K) (indexes : Indexes m keys) (key : K) :
    m.lookup key = none ↔ key ∉ keys := by
  rw [List.mem_iff_getElem?, not_exists]
  constructor
  · intro missing i found
    rw [(indexes key i).mpr found] at missing
    cases missing
  · intro missing
    cases found : m.lookup key with
    | none => rfl
    | some i => exact absurd ((indexes key i).mp found) (missing i)

theorem insert_new_indexes (m : List (K × Nat)) (keys : List K) (indexes : Indexes m keys) (key : K) (fresh : key ∉ keys) :
    ∃ m', insertNew m key keys.length = some m' ∧ Indexes m' (keys ++ [key]) := by
  have missing := (indexes_absent m keys indexes key).mpr fresh
  refine ⟨(key, keys.length) :: m, by simp [insertNew, missing], ?_⟩
  intro other i
  rw [List.lookup_cons]
  by_cases same : other = key
  · subst same
    simp only [BEq.rfl, Option.some.injEq]
    constructor
    · rintro rfl
      simp
    · intro found
      rcases Nat.lt_trichotomy i keys.length with before | last | after
      · rw [List.getElem?_append_left before] at found
        exact absurd (List.mem_of_getElem? found) fresh
      · exact last.symm
      · rw [List.getElem?_eq_none (by rw [List.length_append, List.length_singleton]; omega)] at found
        cases found
  · have differ : (other == key) = false := by simpa using same
    rw [differ]
    simp only [indexes other i]
    constructor
    · intro found
      have bound := (List.getElem?_eq_some_iff.mp found).1
      rw [List.getElem?_append_left bound, found]
    · intro found
      cases Nat.lt_or_ge i keys.length with
      | inl before => rwa [List.getElem?_append_left before] at found
      | inr after =>
          rw [List.getElem?_append_right after] at found
          have last := List.mem_of_getElem? found
          exact absurd (List.mem_singleton.mp last) same

end Solgem.Lib
