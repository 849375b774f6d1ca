import Mathlib.Logic.Function.Basic

set_option autoImplicit false

namespace Solgem.Lib

variable {K V : Type} [DecidableEq K]

-- A map whose read enters the default for a key it does not hold.
def readOrInsert (blank : V) (map : K → Option V) (key : K) : V × (K → Option V) :=
  match map key with
  | some value => (value, map)
  | none => (blank, Function.update map key (some blank))

-- What reads can do to such a map.
def Defaulted (blank : V) (before after : K → Option V) : Prop :=
  ∀ key, after key = before key ∨ before key = none ∧ after key = some blank

omit [DecidableEq K] in
theorem defaulted_refl (blank : V) (map : K → Option V) : Defaulted blank map map := fun _ => .inl rfl

omit [DecidableEq K] in
theorem defaulted_trans (blank : V) (first second third : K → Option V) (early : Defaulted blank first second)
    (late : Defaulted blank second third) : Defaulted blank first third := by
  intro key
  cases late key with
  | inl kept => exact (early key).imp kept.trans (fun entered => ⟨entered.1, kept.trans entered.2⟩)
  | inr entered =>
      cases early key with
      | inl same => exact .inr ⟨same.symm.trans entered.1, entered.2⟩
      | inr before => exact .inr ⟨before.1, entered.2⟩

omit [DecidableEq K] in
theorem defaulted_get (blank : V) (before after : K → Option V) (reads : Defaulted blank before after) (key : K) :
    (after key).getD blank = (before key).getD blank := by
  cases reads key with
  | inl same => rw [same]
  | inr entered => rw [entered.1, entered.2, Option.getD_none, Option.getD_some]

theorem read_or_insert_value (blank : V) (map : K → Option V) (key : K) :
    (readOrInsert blank map key).1 = (map key).getD blank := by
  cases held : map key with
  | none => simp [readOrInsert, held]
  | some value => simp [readOrInsert, held]

theorem read_or_insert_defaulted (blank : V) (map : K → Option V) (key : K) :
    Defaulted blank map (readOrInsert blank map key).2 := by
  cases held : map key with
  | none =>
      intro other
      by_cases here : other = key
      · subst here
        exact .inr ⟨held, by simp [readOrInsert, held]⟩
      · exact .inl (by simp [readOrInsert, held, here])
  | some value => simpa [readOrInsert, held] using defaulted_refl blank map

end Solgem.Lib
