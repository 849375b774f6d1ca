import Mathlib.Data.Int.Order.Basic
import Mathlib.Tactic.Ring
import Mathlib.Tactic.Linarith

set_option autoImplicit false

namespace Solgem.Lib

-- Two's complement narrowing of an integer, as the conversions to signed and
-- unsigned machine words perform it.
def toInt16 (n : Int) : Int := n.bmod (2 ^ 16)
def toInt32 (n : Int) : Int := n.bmod (2 ^ 32)
def toUInt16 (n : Int) : Nat := (n % 2 ^ 16).toNat
def toUInt32 (n : Int) : Nat := (n % 2 ^ 32).toNat

theorem int16_exact (n : Int) (low : -32768 ≤ n) (high : n ≤ 32767) : toInt16 n = n := by
  apply Int.bmod_eq_of_le <;> omega

theorem int16_nat (n : Nat) (small : n ≤ 32767) : toInt16 n = n := int16_exact _ (by omega) (by omega)

theorem int16_bounds (n : Int) : -32768 ≤ toInt16 n ∧ toInt16 n ≤ 32767 := by
  have lower := Int.le_bmod (x := n) (m := 2 ^ 16) (by decide)
  have upper := Int.bmod_lt (x := n) (m := 2 ^ 16) (by decide)
  simp only [toInt16]
  omega

theorem int16_room (n : Int) : (toInt16 n).toNat ≤ 32767 := by
  have bounds := int16_bounds n
  omega

-- A Short_t still tells unsigned short values apart.
theorem int16_inj (m n : Nat) (first : m ≤ 65535) (second : n ≤ 65535) (same : toInt16 m = toInt16 n) : m = n := by
  simp only [toInt16, Int.bmod] at same
  omega

theorem int32_exact (n : Int) (low : -2147483648 ≤ n) (high : n ≤ 2147483647) : toInt32 n = n := by
  apply Int.bmod_eq_of_le <;> omega

theorem int32_pos_iff (n : Int) : 0 < toInt32 n ↔ 0 < n % 2 ^ 32 ∧ n % 2 ^ 32 < 2 ^ 31 := by
  simp only [toInt32, Int.bmod]
  omega

theorem uint16_exact (n : Int) (low : 0 ≤ n) (high : n < 65536) : (toUInt16 n : Int) = n := by
  simp only [toUInt16]
  omega

theorem uint32_exact (n : Int) (low : 0 ≤ n) (high : n < 4294967296) : (toUInt32 n : Int) = n := by
  simp only [toUInt32]
  omega

-- A row-major index determines its row and its column.
theorem flat_index_inj (width row row' col col' : Nat) (bound : col < width) (bound' : col' < width)
    (same : row * width + col = row' * width + col') : row = row' ∧ col = col' := by
  have column : (row * width + col) % width = (row' * width + col') % width := by rw [same]
  have colEq : col = col' := by
    simpa [Nat.mul_add_mod, Nat.mul_comm, Nat.mod_eq_of_lt bound, Nat.mod_eq_of_lt bound'] using column
  subst colEq
  have product : row * width = row' * width := by omega
  exact ⟨Nat.eq_of_mul_eq_mul_right (by omega) product, rfl⟩

end Solgem.Lib
