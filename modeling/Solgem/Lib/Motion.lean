import Mathlib.Logic.Function.Basic

set_option autoImplicit false

namespace Solgem.Lib

variable {A B C D : Type}

-- Two maps that undo each other and keep the distance of any two points.
structure InverseMotions (d : A → A → D) (e : B → B → D) (f : A → B) (g : B → A) : Prop where
  back : ∀ p, g (f p) = p
  forth : ∀ q, f (g q) = q
  keeps : ∀ p p', e (f p) (f p') = d p p'
  keeps_back : ∀ q q', d (g q) (g q') = e q q'

theorem inverse_motions (d : A → A → D) (e : B → B → D) (f : A → B) (g : B → A) (back : ∀ p, g (f p) = p)
    (forth : ∀ q, f (g q) = q) (keeps : ∀ p p', e (f p) (f p') = d p p') : InverseMotions d e f g :=
  ⟨back, forth, keeps, fun q q' => by rw [← keeps, forth, forth]⟩

-- Going on to a third frame, and coming back the other way round.
theorem motions_chain (d : A → A → D) (e : B → B → D) (c : C → C → D) (f : A → B) (g : B → A) (h : B → C) (k : C → B)
    (first : InverseMotions d e f g) (second : InverseMotions e c h k) :
    InverseMotions d c (fun p => h (f p)) (fun q => g (k q)) where
  back p := by rw [second.back, first.back]
  forth q := by rw [first.forth, second.forth]
  keeps p p' := by rw [second.keeps, first.keeps]
  keeps_back q q' := by rw [first.keeps_back, second.keeps_back]

end Solgem.Lib
