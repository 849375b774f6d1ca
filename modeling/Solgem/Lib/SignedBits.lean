import Mathlib.Data.Nat.Bitwise

set_option autoImplicit false

namespace Solgem.Lib

variable {w v : Nat}

theorem sign_extend_inj (wider : w ≤ v) (x y : BitVec w) : x.signExtend v = y.signExtend v ↔ x = y := by
  refine ⟨fun same => BitVec.eq_of_getLsbD_eq fun k below => ?_, fun same => congrArg _ same⟩
  have bits : (x.signExtend v).getLsbD k = (y.signExtend v).getLsbD k := by rw [same]
  simpa only [BitVec.getLsbD_signExtend, below, Nat.lt_of_lt_of_le below wider, decide_true, Bool.true_and, if_true] using bits

-- The mask of one bit, as a shift makes it.
theorem bit_mask (r k : Nat) (inside : r < w) : ((1#w) <<< r).getLsbD k = decide (k = r) := by
  rw [← BitVec.twoPow_eq, BitVec.getLsbD_twoPow, decide_eq_true inside, Bool.true_and, decide_eq_decide]
  exact eq_comm

theorem mask_meets (x : BitVec w) (r : Nat) (inside : r < w) : x &&& (1#w) <<< r = 0#w ↔ x.getLsbD r = false := by
  constructor
  · intro clear
    have bit := congrArg (fun b : BitVec w => b.getLsbD r) clear
    simpa [bit_mask r r inside] using bit
  · intro unset
    refine BitVec.eq_of_getLsbD_eq fun k _ => ?_
    rw [BitVec.getLsbD_and, bit_mask r k inside]
    by_cases here : k = r
    · rw [here, unset]
      simp
    · simp [here]

-- One less than a bit mask has the bits below it, also when there are none.
theorem below_mask (r k : Nat) (inside : r < w) : ((1#w) <<< r - 1#w).getLsbD k = decide (k < r) := by
  have power : 2 ^ r < 2 ^ w := Nat.pow_lt_pow_right (by decide) inside
  have positive : 0 < 2 ^ r := Nat.two_pow_pos r
  have value : ((1#w) <<< r - 1#w).toNat = 2 ^ r - 1 := by
    rw [← BitVec.twoPow_eq, BitVec.toNat_sub, BitVec.toNat_twoPow, Nat.mod_eq_of_lt power]
    have one : (1#w).toNat = 1 := by
      rw [BitVec.toNat_ofNat, Nat.mod_eq_of_lt (by omega)]
    rw [one, show 2 ^ w - 1 + 2 ^ r = 2 ^ r - 1 + 2 ^ w by omega, Nat.add_mod_right, Nat.mod_eq_of_lt (by omega)]
  rw [← BitVec.testBit_toNat, value, Nat.testBit_two_pow_sub_one]

end Solgem.Lib
