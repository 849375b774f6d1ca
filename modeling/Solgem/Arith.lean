import Mathlib.Analysis.Real.Sqrt
import Mathlib.Analysis.SpecialFunctions.Trigonometric.Basic

set_option autoImplicit false

namespace Solgem

-- The arithmetic of Double_t and Float_t as the source uses it. The results
-- below hold for every interpretation, rounding included; a result that needs
-- exact arithmetic says so by naming the reals or an exactness hypothesis.
-- Two facts are built in: an Int_t survives the round trip through Double_t,
-- and scaling a count by a positive factor leaves a count.
class Arith (F : Type) extends Add F, Sub F, Mul F, Div F, Neg F, LT F, LE F, OfScientific F where
  ltDec (a b : F) : Decidable (a < b)
  leDec (a b : F) : Decidable (a ≤ b)
  ofInt : Int → F
  trunc : F → Int
  floor : F → F
  ceil : F → F
  abs : F → F
  sqrt : F → F
  exp : F → F
  sin : F → F
  cos : F → F
  pi : F
  single : F → F
  trunc_ofInt : ∀ n : Int, -2147483648 ≤ n → n ≤ 2147483647 → trunc (ofInt n) = n
  trunc_mul_nonneg : ∀ (n : Int) (x : F), 0 ≤ n → ¬ x ≤ 0.0 → 0 ≤ trunc (ofInt n * x)

attribute [reducible, instance] Arith.ltDec Arith.leDec

variable {F : Type} [Arith F]

-- TMath::Min and TMath::Max keep the first argument on a tie.
def tmin (a b : F) : F := if a ≤ b then a else b
def tmax (a b : F) : F := if b ≤ a then a else b

-- TMath::Nint sends a half-integer to the even neighbour.
def nint (x : F) : Int :=
  if 0.0 ≤ x then
    let i := Arith.trunc (x + 0.5)
    if i % 2 = 1 ∧ x + 0.5 ≤ Arith.ofInt i then i - 1 else i
  else
    let i := Arith.trunc (x - 0.5)
    if i % 2 = 1 ∧ Arith.ofInt i ≤ x - 0.5 then i + 1 else i

-- The two readout projections of a chamber are numbered by Fin 2.
instance two_projections : NeZero 2 := ⟨by decide⟩

-- A point of the hall and of a box has three axes, numbered by Fin 3.
instance three_axes : NeZero 3 := ⟨by decide⟩

theorem projections (ip : Fin 2) : ip = 0 ∨ ip = 1 := by
  omega

-- TVector3, with the operations the digitization uses on it.
structure V3 (F : Type) where
  x : F
  y : F
  z : F
deriving DecidableEq

def V3.add (a b : V3 F) : V3 F := ⟨a.x + b.x, a.y + b.y, a.z + b.z⟩
def V3.sub (a b : V3 F) : V3 F := ⟨a.x - b.x, a.y - b.y, a.z - b.z⟩
def V3.smul (a : V3 F) (c : F) : V3 F := ⟨a.x * c, a.y * c, a.z * c⟩
def V3.rotateZ (a : V3 F) (angle : F) : V3 F :=
  let s := Arith.sin angle
  let c := Arith.cos angle
  ⟨c * a.x - s * a.y, s * a.x + c * a.y, a.z⟩

noncomputable instance : Arith ℝ where
  ltDec _ _ := inferInstance
  leDec _ _ := inferInstance
  ofInt n := n
  trunc x := if 0 ≤ x then ⌊x⌋ else ⌈x⌉
  floor x := ⌊x⌋
  ceil x := ⌈x⌉
  abs x := |x|
  sqrt := Real.sqrt
  exp := Real.exp
  sin := Real.sin
  cos := Real.cos
  pi := Real.pi
  single x := x
  trunc_ofInt n _ _ := by simp
  trunc_mul_nonneg n x count positive := by
    have scaled : (0 : ℝ) ≤ n * x :=
      mul_nonneg (by exact_mod_cast count) (by norm_num at positive; exact positive.le)
    rw [if_pos scaled]
    exact Int.floor_nonneg.mpr scaled

end Solgem
