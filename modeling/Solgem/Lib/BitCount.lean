import Mathlib.Data.List.Count
import Mathlib.Data.Nat.Bitwise
import Mathlib.Tactic.Ring

set_option autoImplicit false

namespace Solgem.Lib

-- The number of bits of v set below position n.
def bitCount (n v : Nat) : Nat := (List.range n).countP v.testBit

-- A word of four bytes, the lowest first.
def word (a b c d : Nat) : Nat := 2 ^ 8 * (2 ^ 8 * (2 ^ 8 * d + c) + b) + a

theorem land_split (k a b c d : Nat) (low : a < 2 ^ k) (low' : c < 2 ^ k) :
    (2 ^ k * b + a) &&& (2 ^ k * d + c) = 2 ^ k * (b &&& d) + (a &&& c) := by
  have masked : a &&& c < 2 ^ k := Nat.and_lt_two_pow a low'
  refine Nat.eq_of_testBit_eq (fun j => ?_)
  rw [Nat.testBit_and, Nat.testBit_two_pow_mul_add b low, Nat.testBit_two_pow_mul_add d low', Nat.testBit_two_pow_mul_add _ masked]
  by_cases below : j < k
  · simp [below]
  · simp [below]

theorem word_land (a b c d m : Nat) (first : a < 256) (second : b < 256) (third : c < 256) (mask : m < 256) :
    word a b c d &&& word m m m m = word (a &&& m) (b &&& m) (c &&& m) (d &&& m) := by
  rw [word, word, land_split 8 _ _ _ _ first mask, land_split 8 _ _ _ _ second mask, land_split 8 _ _ _ _ third mask, word]

theorem bit_count_split (n a b : Nat) (low : a < 2 ^ 8) : bitCount (8 + n) (2 ^ 8 * b + a) = bitCount 8 a + bitCount n b := by
  rw [bitCount, bitCount, bitCount, List.range_add, List.countP_append, List.countP_map]
  refine congrArg₂ (· + ·) (List.countP_congr fun i member => ?_) (List.countP_congr fun i _ => ?_)
  · rw [Nat.testBit_two_pow_mul_add b low, if_pos (List.mem_range.mp member)]
  · rw [Function.comp_apply, Nat.testBit_two_pow_mul_add b low, if_neg (by omega), Nat.add_sub_cancel_left]

theorem word_bit_count (a b c d : Nat) (first : a < 256) (second : b < 256) (third : c < 256) :
    bitCount 32 (word a b c d) = bitCount 8 a + bitCount 8 b + bitCount 8 c + bitCount 8 d := by
  rw [word, show 32 = 8 + (8 + (8 + 8)) from rfl, bit_count_split _ a _ first, bit_count_split _ b _ second,
    bit_count_split _ c _ third]
  omega

-- The counts a byte holds in its pairs, and then in its nibbles.
def pairCounts (a : Nat) : Nat := a - (a / 2 &&& 85)
def nibbleCounts (a : Nat) : Nat := (pairCounts a &&& 51) + (pairCounts a / 4 &&& 51)

-- Whatever the byte above shifts in is masked out again.
theorem byte_counts : ∀ a < 256, (∀ e < 2, a / 2 + 128 * e &&& 85 = a / 2 &&& 85) ∧ (a / 2 &&& 85) ≤ a ∧
    (∀ e < 4, pairCounts a / 4 + 64 * e &&& 51 = pairCounts a / 4 &&& 51) ∧ nibbleCounts a ≤ 68 ∧
    nibbleCounts a % 16 ≤ 4 ∧ bitCount 8 a ≤ 8 ∧
    ∀ e < 5, nibbleCounts a + nibbleCounts a / 16 + 16 * e &&& 15 = bitCount 8 a := by
  decide +kernel

theorem word_split (v : Nat) (wide : v < 2 ^ 32) :
    ∃ a b c d, a < 256 ∧ b < 256 ∧ c < 256 ∧ d < 256 ∧ v = word a b c d := by
  refine ⟨v % 256, v / 256 % 256, v / 65536 % 256, v / 16777216, by omega, by omega, by omega, by omega, ?_⟩
  rw [word]
  omega

section
variable (a b c d : Nat) (first : a < 256) (second : b < 256) (third : c < 256) (fourth : d < 256)

include first second third fourth

theorem count_pairs : word a b c d - (word a b c d / 2 &&& word 85 85 85 85) =
    word (pairCounts a) (pairCounts b) (pairCounts c) (pairCounts d) := by
  have shifted : word a b c d / 2 = word (a / 2 + 128 * (b % 2)) (b / 2 + 128 * (c % 2)) (c / 2 + 128 * (d % 2)) (d / 2) := by
    simp only [word]
    omega
  obtain ⟨maskA, leA, _⟩ := byte_counts a first
  obtain ⟨maskB, leB, _⟩ := byte_counts b second
  obtain ⟨maskC, leC, _⟩ := byte_counts c third
  obtain ⟨_, leD, _⟩ := byte_counts d fourth
  rw [shifted, word_land _ _ _ _ _ (by omega) (by omega) (by omega) (by omega), maskA _ (by omega), maskB _ (by omega), maskC _ (by omega)]
  simp only [word, pairCounts]
  omega

theorem count_nibbles : (word (pairCounts a) (pairCounts b) (pairCounts c) (pairCounts d) &&& word 51 51 51 51) +
      (word (pairCounts a) (pairCounts b) (pairCounts c) (pairCounts d) / 4 &&& word 51 51 51 51) =
    word (nibbleCounts a) (nibbleCounts b) (nibbleCounts c) (nibbleCounts d) := by
  have smaller : ∀ e, e < 256 → pairCounts e < 256 := fun e below => by
    rw [pairCounts]
    omega
  have lowA := smaller a first
  have lowB := smaller b second
  have lowC := smaller c third
  have lowD := smaller d fourth
  have shifted : word (pairCounts a) (pairCounts b) (pairCounts c) (pairCounts d) / 4 =
      word (pairCounts a / 4 + 64 * (pairCounts b % 4)) (pairCounts b / 4 + 64 * (pairCounts c % 4))
        (pairCounts c / 4 + 64 * (pairCounts d % 4)) (pairCounts d / 4) := by
    simp only [word]
    omega
  obtain ⟨_, _, maskA, _⟩ := byte_counts a first
  obtain ⟨_, _, maskB, _⟩ := byte_counts b second
  obtain ⟨_, _, maskC, _⟩ := byte_counts c third
  rw [shifted, word_land _ _ _ _ _ lowA lowB lowC (by omega), word_land _ _ _ _ _ (by omega) (by omega) (by omega) (by omega),
    maskA _ (by omega), maskB _ (by omega), maskC _ (by omega)]
  simp only [word, nibbleCounts]
  omega

theorem count_bytes : word (nibbleCounts a) (nibbleCounts b) (nibbleCounts c) (nibbleCounts d) +
      word (nibbleCounts a) (nibbleCounts b) (nibbleCounts c) (nibbleCounts d) / 16 &&& word 15 15 15 15 =
    word (bitCount 8 a) (bitCount 8 b) (bitCount 8 c) (bitCount 8 d) := by
  obtain ⟨_, _, _, leA, lowA, _, countA⟩ := byte_counts a first
  obtain ⟨_, _, _, leB, lowB, _, countB⟩ := byte_counts b second
  obtain ⟨_, _, _, leC, lowC, _, countC⟩ := byte_counts c third
  obtain ⟨_, _, _, leD, lowD, _, countD⟩ := byte_counts d fourth
  have summed : word (nibbleCounts a) (nibbleCounts b) (nibbleCounts c) (nibbleCounts d) +
        word (nibbleCounts a) (nibbleCounts b) (nibbleCounts c) (nibbleCounts d) / 16 =
      word (nibbleCounts a + nibbleCounts a / 16 + 16 * (nibbleCounts b % 16))
        (nibbleCounts b + nibbleCounts b / 16 + 16 * (nibbleCounts c % 16))
        (nibbleCounts c + nibbleCounts c / 16 + 16 * (nibbleCounts d % 16)) (nibbleCounts d + nibbleCounts d / 16 + 16 * 0) := by
    simp only [word]
    omega
  rw [summed, word_land _ _ _ _ _ (by omega) (by omega) (by omega) (by omega), countA _ (by omega), countB _ (by omega),
    countC _ (by omega), countD 0 (by omega)]

-- None of the sums leaves the word.
theorem nibbles_fit : word (nibbleCounts a) (nibbleCounts b) (nibbleCounts c) (nibbleCounts d) < 2 ^ 31 := by
  obtain ⟨_, _, _, leA, _⟩ := byte_counts a first
  obtain ⟨_, _, _, leB, _⟩ := byte_counts b second
  obtain ⟨_, _, _, leC, _⟩ := byte_counts c third
  obtain ⟨_, _, _, leD, _⟩ := byte_counts d fourth
  simp only [word]
  omega

theorem gather_bytes : word (bitCount 8 a) (bitCount 8 b) (bitCount 8 c) (bitCount 8 d) * word 1 1 1 1 % 2 ^ 32 / 2 ^ 24 =
    bitCount 32 (word a b c d) := by
  obtain ⟨_, _, _, _, _, smallA, _⟩ := byte_counts a first
  obtain ⟨_, _, _, _, _, smallB, _⟩ := byte_counts b second
  obtain ⟨_, _, _, _, _, smallC, _⟩ := byte_counts c third
  obtain ⟨_, _, _, _, _, smallD, _⟩ := byte_counts d fourth
  rw [word_bit_count a b c d first second third]
  generalize bitCount 8 a = k at *
  generalize bitCount 8 b = l at *
  generalize bitCount 8 c = m at *
  generalize bitCount 8 d = n at *
  -- the top byte of the product collects all four, the bytes below do not carry
  have product : word k l m n * word 1 1 1 1 =
      2 ^ 32 * (l + m + n + 256 * (m + n) + 65536 * n) + (2 ^ 24 * (k + l + m + n) + (k + 256 * (k + l) + 65536 * (k + l + m))) := by
    simp only [word]
    ring
  rw [product, Nat.mul_add_mod, Nat.mod_eq_of_lt (by omega)]
  omega

end

end Solgem.Lib
