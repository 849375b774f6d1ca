import Mathlib.Data.Real.Basic
import Solgem.ClusterLoop

set_option autoImplicit false

namespace Solgem

open Lib

variable {F : Type}

theorem aligned_columns (c : Columns F) (aligned : c.aligned = true) : ∃ hits, c = columns hits := by
  obtain ⟨E, x, y⟩ := c
  simp only [Columns.aligned, Bool.and_eq_true, beq_iff_eq] at aligned
  obtain ⟨first, second⟩ := aligned
  refine ⟨List.zipWith (fun e xy => ⟨e, xy.1, xy.2⟩) E (x.zip y), ?_⟩
  simp only [columns, List.map_zipWith, Columns.mk.injEq]
  refine ⟨List.ext_getElem ?_ ?_, List.ext_getElem ?_ ?_, List.ext_getElem ?_ ?_⟩
  all_goals simp [first, second]

variable [Arith F]

-- The passes of one while loop, counted: the loop ends behind the first pass
-- that transfers nothing.
inductive Passes (cut : F) : Vectors F → Nat → Vectors F → Prop
  | last (v v' : Vectors F) : pass cut v.blocks.E.length v 0 = some (v', 0) → Passes cut v 1 v'
  | more (v mid v' : Vectors F) (added k : Nat) : pass cut v.blocks.E.length v 0 = some (mid, added) → 0 < added →
      Passes cut mid k v' → Passes cut v (k + 1) v'

-- The passes of all while loops GetHCalCluster runs for one block, and for all.
inductive PassesRow (cut : F) : Nat → Vectors F → Nat → Vectors F → Prop
  | done (i_ : Nat) (v : Vectors F) : ¬ i_ < v.clus.E.length → PassesRow cut i_ v 0 v
  | next (i_ k m : Nat) (v mid v' : Vectors F) : i_ < v.clus.E.length → Passes cut v k mid →
      PassesRow cut (i_ + 1) mid m v' → PassesRow cut i_ v (k + m) v'

inductive PassesHCal (cut : F) : Nat → Vectors F → Nat → Vectors F → Prop
  | done (v : Vectors F) : PassesHCal cut 0 v 0 v
  | next (n k m : Nat) (v mid v' : Vectors F) : PassesRow cut 0 v k mid → PassesHCal cut n mid m v' →
      PassesHCal cut (n + 1) v (k + m) v'

-- Every pass but the last one takes a block out.
theorem passes_total (cut : F) (blocks clus : List (CaloHit F)) :
    ∃ k blocks' clus', Passes cut (vectors blocks clus) k (vectors blocks' clus') ∧ 0 < k ∧
      k + blocks'.length ≤ blocks.length + 1 ∧
      clus'.length + blocks'.length = clus.length + blocks.length ∧
      growLoop cut (vectors blocks clus) = some (vectors blocks' clus') := by
  have size : (vectors blocks clus).blocks.E.length = blocks.length := columns_length blocks
  obtain ⟨mid, clusMid, added, passed, _, _, _⟩ := pass_transfers cut blocks.length blocks clus 0 (Nat.le_refl _)
  rw [← size] at passed
  have bounds := pass_bounds cut _ _ 0 _ added passed
  have left : mid.length + added = blocks.length := by simpa only [vectors, columns_length, add_zero] using bounds.1
  have total : clusMid.length + mid.length = clus.length + blocks.length := by
    simpa only [vectors, columns_length] using bounds.2
  rw [growLoop, passed]
  simp only
  by_cases more : 0 < added
  · rw [if_pos more]
    obtain ⟨k, blocks', clus', run, _, count, total', result⟩ := passes_total cut mid clusMid
    exact ⟨k + 1, blocks', clus', .more _ _ _ added k passed more run, by omega, by omega, by omega, result⟩
  · rw [if_neg more]
    obtain rfl : added = 0 := by omega
    exact ⟨1, mid, clusMid, .last _ _ passed, by omega, by omega, by omega, rfl⟩
termination_by blocks.length
decreasing_by omega

theorem passes_row_total (cut : F) (n i_ : Nat) (blocks clus : List (CaloHit F)) (few : blocks.length ≤ n) :
    ∃ k blocks' clus', PassesRow cut i_ (vectors blocks clus) k (vectors blocks' clus') ∧ blocks'.length ≤ n ∧
      k ≤ (clus.length + blocks.length - i_) * (n + 1) ∧
      clus'.length + blocks'.length = clus.length + blocks.length ∧
      regrow cut i_ (vectors blocks clus) = some (vectors blocks' clus') := by
  have aligned : ((vectors blocks clus).blocks.aligned && (vectors blocks clus).clus.aligned) = true := by
    simp [vectors]
  have size : (vectors blocks clus).clus.E.length = clus.length := columns_length clus
  rw [regrow]
  by_cases inside : i_ < clus.length
  · obtain ⟨k, mid, clusMid, run, some_pass, count, total, grown⟩ := passes_total cut blocks clus
    have checked : grow cut (vectors blocks clus) = some (vectors mid clusMid) := by rw [grow, if_pos aligned, grown]
    obtain ⟨m, blocks', clus', rest, few', count', total', result⟩ := passes_row_total cut n (i_ + 1) mid clusMid (by omega)
    have split : (clus.length + blocks.length - i_) * (n + 1) = (clusMid.length + mid.length - (i_ + 1)) * (n + 1) + (n + 1) := by
      rw [← Nat.succ_mul]
      congr 1
      omega
    rw [if_pos (by rwa [size]), checked]
    exact ⟨k + m, blocks', clus', .next i_ k m _ _ _ (by rwa [size]) run rest, few', by omega, by omega, result⟩
  · rw [if_neg (by rwa [size])]
    exact ⟨0, blocks, clus, .done i_ _ (by rwa [size]), few, Nat.zero_le _, rfl, rfl⟩
termination_by clus.length + blocks.length - i_
decreasing_by omega

theorem passes_hcal_total (cut : F) (bound n : Nat) (blocks clus : List (CaloHit F)) (few : blocks.length ≤ bound) :
    ∃ k blocks' clus', PassesHCal cut n (vectors blocks clus) k (vectors blocks' clus') ∧
      k ≤ n * ((clus.length + blocks.length) * (bound + 1)) ∧
      growHCal cut n (vectors blocks clus) = some (vectors blocks' clus') := by
  induction n generalizing blocks clus with
  | zero => exact ⟨0, blocks, clus, .done _, Nat.zero_le _, rfl⟩
  | succ n ih =>
      obtain ⟨k, mid, clusMid, run, few', count, total, grown⟩ := passes_row_total cut bound 0 blocks clus few
      obtain ⟨m, blocks', clus', rest, count', result⟩ := ih mid clusMid few'
      rw [total] at count'
      refine ⟨k + m, blocks', clus', .next n k m _ _ _ run rest, ?_, by rw [growHCal, grown]; exact result⟩
      rw [Nat.succ_mul]
      rw [Nat.sub_zero] at count
      omega

-- No index leaves its vector, and the loops end: the while loop after at most
-- one pass more than there are blocks.
theorem growing_loops_end (cut : F) (v : Vectors F) (blocks : v.blocks.aligned = true) (clus : v.clus.aligned = true) :
    (∃ k v', Passes cut v k v' ∧ k ≤ v.blocks.E.length + 1 ∧ growLoop cut v = some v') ∧
      ∃ k v', PassesHCal cut v.blocks.E.length v k v' ∧
        k ≤ v.blocks.E.length * ((v.clus.E.length + v.blocks.E.length) * (v.blocks.E.length + 1)) ∧
        growHCal cut v.blocks.E.length v = some v' := by
  obtain ⟨blockHits, fromBlocks⟩ := aligned_columns v.blocks blocks
  obtain ⟨clusHits, fromClus⟩ := aligned_columns v.clus clus
  obtain rfl : v = vectors blockHits clusHits := by
    rw [vectors, ← fromBlocks, ← fromClus]
  have size : (vectors blockHits clusHits).blocks.E.length = blockHits.length := columns_length blockHits
  have size' : (vectors blockHits clusHits).clus.E.length = clusHits.length := columns_length clusHits
  rw [size, size']
  obtain ⟨k, blocks', clus', run, _, count, _, result⟩ := passes_total cut blockHits clusHits
  obtain ⟨m, blocks'', clus'', run', count', result'⟩ :=
    passes_hcal_total cut blockHits.length blockHits.length blockHits clusHits (Nat.le_refl _)
  exact ⟨⟨k, _, run, by omega, result⟩, m, _, run', count', result'⟩

theorem growing_loops_end_two_blocks :
    let v : Vectors ℝ := ⟨⟨[1, 2], [0, 1], [0, 0]⟩, ⟨[3], [0], [0]⟩⟩
    (∃ k v', Passes 1.1 v k v' ∧ k ≤ 3 ∧ growLoop 1.1 v = some v') ∧
      ∃ k v', PassesHCal 1.1 2 v k v' ∧ k ≤ 2 * (3 * 3) ∧ growHCal 1.1 2 v = some v' :=
  growing_loops_end 1.1 ⟨⟨[1, 2], [0, 1], [0, 0]⟩, ⟨[3], [0], [0]⟩⟩ rfl rfl

end Solgem
