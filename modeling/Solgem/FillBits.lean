import Solgem.HitRecord
import Solgem.Lib.Runs
import Solgem.Lib.SignedBits

set_option autoImplicit false

namespace Solgem

open Lib

variable {F : Type}

namespace G4SBSHitData

-- (1<<fSize) - 1 is an int as well, and is then widened.
def isFilled (h : G4SBSHitData F) : Bool := h.fFillbits = ((1#32) <<< (h.fSize % 32) - 1#32).signExtend 64

def store (h : G4SBSHitData F) (calls : List (Nat × F)) : G4SBSHitData F :=
  calls.foldl (fun h call => h.setData call.1 call.2) h

-- The value of the last call with an index.
def lastStored (calls : List (Nat × F)) (i : Nat) : Option F :=
  ((calls.filter (fun call => call.1 = i)).getLast?).map Prod.snd

-- Bit k of the pattern's int is set, by an index in range or by the
-- constructor.
def Covered (size : Nat) (calls : List (Nat × F)) (k : Nat) : Prop :=
  k = 0 ∨ ∃ call ∈ calls, call.1 < size ∧ call.1 % 32 = k

def IsSet (calls : List (Nat × F)) (i : Nat) : Prop := ∃ call ∈ calls, call.1 = i

structure Stored (memory : Nat → F) (size : Nat) (calls : List (Nat × F)) (h : G4SBSHitData F) : Prop where
  sized : h.fSize = size
  bits : ∃ low : BitVec 32, h.fFillbits = low.signExtend 64 ∧ ∀ k < 32, (low.getLsbD k = true ↔ Covered size calls k)
  data : ∀ i, 1 ≤ i → i < size → h.fData i = (lastStored calls i).getD (memory i)

theorem last_stored_append (calls : List (Nat × F)) (call : Nat × F) (i : Nat) :
    lastStored (calls ++ [call]) i = if call.1 = i then some call.2 else lastStored calls i := by
  by_cases here : call.1 = i
  · simp [lastStored, here]
  · simp [lastStored, here]

theorem last_stored_none (calls : List (Nat × F)) (i : Nat) : lastStored calls i = none ↔ ¬ IsSet calls i := by
  rw [lastStored, Option.map_eq_none_iff, List.getLast?_eq_none_iff, List.filter_eq_nil_iff, IsSet]
  exact ⟨fun clear ⟨call, member, same⟩ => clear call member (decide_eq_true same),
    fun unset call member same => unset ⟨call, member, of_decide_eq_true same⟩⟩

theorem covered_append (size : Nat) (calls : List (Nat × F)) (call : Nat × F) (k : Nat) :
    Covered size (calls ++ [call]) k ↔ Covered size calls k ∨ (call.1 < size ∧ call.1 % 32 = k) := by
  simp only [Covered, List.mem_append, List.mem_singleton]
  constructor
  · intro covered
    cases covered with
    | inl zero => exact .inl (.inl zero)
    | inr found =>
        obtain ⟨other, member, inside⟩ := found
        cases member with
        | inl earlier => exact .inl (.inr ⟨other, earlier, inside⟩)
        | inr last => exact .inr (last ▸ inside)
  · intro covered
    cases covered with
    | inl earlier => exact earlier.imp id fun ⟨other, member, inside⟩ => ⟨other, .inl member, inside⟩
    | inr inside => exact .inr ⟨call, .inr rfl, inside⟩

theorem set_data_stored (memory : Nat → F) (size : Nat) (calls : List (Nat × F)) (h : G4SBSHitData F)
    (stored : Stored memory size calls h) (call : Nat × F) : Stored memory size (calls ++ [call]) (h.setData call.1 call.2) := by
  obtain ⟨sized, ⟨low, pattern, covers⟩, data⟩ := stored
  rw [setData]
  by_cases outside : h.fSize ≤ call.1
  · rw [if_pos outside]
    rw [sized] at outside
    refine ⟨sized, ⟨low, pattern, fun k below => ?_⟩, fun i first inside => ?_⟩
    · rw [covers k below, covered_append]
      exact ⟨.inl, fun either => either.resolve_right fun last => absurd last.1 (Nat.not_lt.mpr outside)⟩
    · rw [last_stored_append, if_neg (by omega)]
      exact data i first inside
  · rw [if_neg outside]
    rw [sized] at outside
    have room : call.1 % 32 < 32 := Nat.mod_lt _ (by decide)
    refine ⟨sized, ⟨low ||| (1#32) <<< (call.1 % 32), ?_, fun k below => ?_⟩, fun i first inside => ?_⟩
    · rw [pattern, bit, BitVec.signExtend_or]
    · rw [BitVec.getLsbD_or, bit_mask _ _ room, Bool.or_eq_true, covers k below, covered_append, decide_eq_true_iff]
      exact or_congr_right ⟨fun same => ⟨Nat.lt_of_not_le outside, same.symm⟩, fun last => last.2.symm⟩
    · rw [last_stored_append]
      by_cases here : call.1 = i
      · rw [if_pos here, here]
        exact Function.update_self i call.2 h.fData
      · rw [if_neg here]
        exact (Function.update_of_ne (Ne.symm here) call.2 h.fData).trans (data i first inside)

theorem stored_is_filled (memory : Nat → F) (size : Nat) (calls : List (Nat × F)) (h : G4SBSHitData F)
    (stored : Stored memory size calls h) : h.isFilled = true ↔ ∀ k < 32, (Covered size calls k ↔ k < size % 32) := by
  obtain ⟨low, pattern, covers⟩ := stored.bits
  have room : size % 32 < 32 := Nat.mod_lt _ (by decide)
  rw [isFilled, decide_eq_true_iff, pattern, stored.sized, sign_extend_inj (by decide)]
  constructor
  · intro same k below
    rw [← covers k below, same, below_mask _ k room, decide_eq_true_iff]
  · intro exact_bits
    refine BitVec.eq_of_getLsbD_eq fun k below => ?_
    rw [below_mask _ k room, Bool.eq_iff_iff, covers k below, exact_bits k below, decide_eq_true_iff]

def AllSet (size : Nat) (calls : List (Nat × F)) : Prop := ∀ i, 1 ≤ i → i < size → IsSet calls i

theorem set_covers (size : Nat) (calls : List (Nat × F)) (i : Nat) (inside : i < size) (set : IsSet calls i) :
    Covered size calls (i % 32) := by
  obtain ⟨call, member, same⟩ := set
  exact .inr ⟨call, member, by omega, by rw [same]⟩

-- Up to 31 indices have a bit each.
theorem small_residues (size : Nat) (positive : 1 ≤ size) (small : size ≤ 31) (calls : List (Nat × F)) :
    (∀ k < 32, (Covered size calls k ↔ k < size % 32)) ↔ AllSet size calls := by
  have whole : ∀ k < 32, ∀ call : Nat × F, call.1 < size → (call.1 % 32 = k ↔ call.1 = k) := by
    intro k _ call inside
    rw [Nat.mod_eq_of_lt (by omega)]
  rw [Nat.mod_eq_of_lt (by omega)]
  constructor
  · intro covers i first inside
    cases (covers i (by omega)).mpr inside with
    | inl zero => omega
    | inr found =>
        obtain ⟨call, member, room, residue⟩ := found
        exact ⟨call, member, (whole i (by omega) call room).mp residue⟩
  · intro all k below
    constructor
    · intro covered
      cases covered with
      | inl zero => omega
      | inr found =>
          obtain ⟨call, _, room, residue⟩ := found
          rw [← (whole k below call room).mp residue]
          exact room
    · intro inside
      by_cases zero : k = 0
      · exact .inl zero
      · have covered := set_covers size calls k inside (all k (by omega) inside)
        rwa [Nat.mod_eq_of_lt below] at covered

-- With every index set, bit 31 is set, which no comparison asks for.
theorem large_residues (size : Nat) (large : 32 ≤ size) (calls : List (Nat × F)) (all : AllSet size calls) :
    ¬ ∀ k < 32, (Covered size calls k ↔ k < size % 32) := by
  intro covers
  have covered : Covered size calls (31 % 32) := set_covers size calls 31 (by omega) (all 31 (by decide) (by omega))
  have asked := (covers 31 (by decide)).mp covered
  omega

variable [Arith F]

theorem new_stored (memory : Nat → F) (detid : Int) (size : Nat) (record : G4SBSHitData F)
    (made : new memory detid size = some record) : Stored memory size [] record := by
  rw [new] at made
  split at made
  · cases made
  · cases made
    have widened : 1#64 = (1#32).signExtend 64 := by decide
    refine ⟨rfl, ⟨1#32, widened, fun k _ => ?_⟩, fun i low _ => Function.update_of_ne (Nat.ne_of_gt low) _ _⟩
    simp [Covered]

theorem store_stored (memory : Nat → F) (detid : Int) (size : Nat) (record : G4SBSHitData F)
    (made : new memory detid size = some record) (calls : List (Nat × F)) : Stored memory size calls (record.store calls) :=
  foldl_invariant _ (fun past h => Stored memory size past h) [] calls
    (fun past call h _ kept => set_data_stored memory size past h kept call) record (new_stored memory detid size record made)

theorem stored_get_data (memory : Nat → F) (size : Nat) (calls : List (Nat × F)) (h : G4SBSHitData F)
    (stored : Stored memory size calls h) (i : Nat) (first : 1 ≤ i) (inside : i < size) :
    (Covered size calls (i % 32) → h.getData i = (lastStored calls i).getD (memory i)) ∧
      (¬ Covered size calls (i % 32) → h.getData i = 1e9) := by
  obtain ⟨low, pattern, covers⟩ := stored.bits
  have room : i % 32 < 32 := Nat.mod_lt _ (by decide)
  have clear : h.fFillbits &&& bit i = 0#64 ↔ ¬ Covered size calls (i % 32) := by
    have zero : (0#64) = (0#32).signExtend 64 := by decide
    rw [pattern, bit, ← BitVec.signExtend_and, zero, sign_extend_inj (by decide), mask_meets _ _ room, ← covers _ room,
      Bool.not_eq_true]
  rw [getData, stored.sized, if_neg (by omega)]
  refine ⟨fun covered => ?_, fun uncovered => if_pos (clear.mpr uncovered)⟩
  rw [if_neg fun unset => clear.mp unset covered]
  exact stored.data i first inside

-- What the fill bits are for.
structure FillsExactly (size : Nat) (calls : List (Nat × F)) (h : G4SBSHitData F) : Prop where
  filled : h.isFilled = true ↔ AllSet size calls
  values : ∀ i, 1 ≤ i → i < size → h.getData i = (lastStored calls i).getD 1e9

-- A record of more than 31 doubles goes unnoticed as long as some index is not
-- set, the indices set do not have just the residues of the comparison, and an
-- index that shares its bit with one that is set, or with 0, still reads 1e9.
structure Unnoticed (memory : Nat → F) (size : Nat) (calls : List (Nat × F)) : Prop where
  incomplete : ¬ AllSet size calls
  residues : ¬ ∀ k < 32, (Covered size calls k ↔ k < size % 32)
  fresh : ∀ i, 1 ≤ i → i < size → ¬ IsSet calls i → Covered size calls (i % 32) → memory i = 1e9

theorem values_exactly (memory : Nat → F) (size : Nat) (calls : List (Nat × F)) (h : G4SBSHitData F)
    (stored : Stored memory size calls h) :
    (∀ i, 1 ≤ i → i < size → h.getData i = (lastStored calls i).getD 1e9) ↔
      ∀ i, 1 ≤ i → i < size → ¬ IsSet calls i → Covered size calls (i % 32) → memory i = 1e9 := by
  refine forall_congr' fun i => forall_congr' fun first => forall_congr' fun inside => ?_
  obtain ⟨kept, failed⟩ := stored_get_data memory size calls h stored i first inside
  cases last : lastStored calls i with
  | some data =>
      have set : IsSet calls i := by
        by_contra unset
        rw [(last_stored_none calls i).mpr unset] at last
        cases last
      rw [last] at kept
      exact ⟨fun _ unset => absurd set unset, fun _ => kept (set_covers size calls i inside set)⟩
  | none =>
      have unset := (last_stored_none calls i).mp last
      rw [last, Option.getD_none] at kept
      rw [Option.getD_none]
      constructor
      · intro reads _ covered
        rw [← reads, kept covered]
      · intro fresh
        by_cases covered : Covered size calls (i % 32)
        · rw [kept covered, fresh unset covered]
        · exact failed covered

theorem fill_bits_exactly (memory : Nat → F) (detid : Int) (size : Nat) (positive : 1 ≤ size) (record : G4SBSHitData F)
    (made : new memory detid size = some record) (calls : List (Nat × F)) :
    FillsExactly size calls (record.store calls) ↔ size ≤ 31 ∨ Unnoticed memory size calls := by
  have stored := store_stored memory detid size record made calls
  have filled := stored_is_filled memory size calls _ stored
  have values := values_exactly memory size calls _ stored
  by_cases small : size ≤ 31
  · refine ⟨fun _ => .inl small, fun _ => ⟨?_, values.mpr fun i first inside unset covered => ?_⟩⟩
    · rw [filled, small_residues size positive small calls]
    · rw [Nat.mod_eq_of_lt (by omega)] at covered
      cases covered with
      | inl zero => omega
      | inr found =>
          obtain ⟨call, member, room, residue⟩ := found
          rw [Nat.mod_eq_of_lt (by omega)] at residue
          exact absurd ⟨call, member, residue⟩ unset
  · have large : 32 ≤ size := by omega
    constructor
    · intro exactly
      have unset : ¬ AllSet size calls := fun all =>
        large_residues size large calls all (filled.mp (exactly.filled.mpr all))
      exact .inr ⟨unset, fun residues => unset (exactly.filled.mp (filled.mpr residues)), values.mp exactly.values⟩
    · intro condition
      have unnoticed := condition.resolve_left small
      refine ⟨⟨fun claimed => absurd (filled.mp claimed) unnoticed.residues, fun all => absurd all unnoticed.incomplete⟩, ?_⟩
      exact values.mpr unnoticed.fresh

theorem fill_bits_of_gem_hit :
    ∃ record : G4SBSHitData ℝ, new (fun _ => 0) 3 24 = some record ∧
      (FillsExactly 24 [(5, (1 : ℝ)), (5, 0)] (record.store [(5, 1), (5, 0)]) ↔
        24 ≤ 31 ∨ Unnoticed (fun _ => (0 : ℝ)) 24 [(5, 1), (5, 0)]) :=
  ⟨_, rfl, fill_bits_exactly (fun _ => 0) 3 24 (by decide) _ rfl _⟩

noncomputable def everyIndex : List (Nat × ℝ) := (List.range 31).map (fun k => (k + 1, 0))

theorem every_index_set : AllSet 32 everyIndex := by
  intro i first inside
  exact ⟨(i - 1 + 1, 0), List.mem_map.mpr ⟨i - 1, List.mem_range.mpr (by omega), rfl⟩, by omega⟩

-- A record of the default size is not filled when every index is set. One of
-- 33 doubles is filled from the start, and gives out memory nobody wrote.
theorem default_size_never_filled :
    ∃ record wide : G4SBSHitData ℝ, new (fun _ => 0) 3 32 = some record ∧ new (fun _ => 0) 3 33 = some wide ∧
      AllSet 32 everyIndex ∧ (record.store everyIndex).isFilled = false ∧
      wide.isFilled = true ∧ ¬ AllSet 33 ([] : List (Nat × ℝ)) ∧ wide.getData 32 = 0 ∧
      ¬ FillsExactly 32 everyIndex (record.store everyIndex) ∧ ¬ FillsExactly 33 [] wide := by
  refine ⟨_, _, rfl, rfl, every_index_set, ?_⟩
  have stored := store_stored (fun _ => (0 : ℝ)) 3 32 _ rfl everyIndex
  have fresh := new_stored (fun _ => (0 : ℝ)) 3 33 _ rfl
  have missed := large_residues 32 (le_refl 32) everyIndex every_index_set
  have zero : ∀ k < 32, (Covered 33 ([] : List (Nat × ℝ)) k ↔ k < 33 % 32) := by
    intro k _
    simp [Covered]
  have unset : ¬ AllSet 33 ([] : List (Nat × ℝ)) := fun all => by simpa [IsSet] using all 1 (le_refl 1) (by decide)
  refine ⟨?_, (stored_is_filled _ _ _ _ fresh).mpr zero, unset, ?_, fun exactly => ?_, fun exactly => ?_⟩
  · exact Bool.eq_false_iff.mpr fun filled => missed ((stored_is_filled _ _ _ _ stored).mp filled)
  · exact (stored_get_data _ _ _ _ fresh 32 (by decide) (by decide)).1 (.inl rfl)
  · exact missed ((stored_is_filled _ _ _ _ stored).mp (exactly.filled.mpr every_index_set))
  · exact unset (exactly.filled.mp ((stored_is_filled _ _ _ _ fresh).mpr zero))

end G4SBSHitData

end Solgem
