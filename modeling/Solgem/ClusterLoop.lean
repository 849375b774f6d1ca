import Solgem.Clustering
import Solgem.Lib.Growth

set_option autoImplicit false

namespace Solgem

open Lib

variable {F : Type}

-- The vectors hold the fields of lists of hits.
def columns (hits : List (CaloHit F)) : Columns F := ⟨hits.map CaloHit.E, hits.map CaloHit.x, hits.map CaloHit.y⟩

def vectors (blocks clus : List (CaloHit F)) : Vectors F := ⟨columns blocks, columns clus⟩

@[simp] theorem columns_length (hits : List (CaloHit F)) : (columns hits).E.length = hits.length := by
  simp [columns]

@[simp] theorem columns_aligned (hits : List (CaloHit F)) : (columns hits).aligned = true := by
  simp [columns, Columns.aligned]

@[simp] theorem columns_entry (hits : List (CaloHit F)) (i : Nat) : (columns hits).entry i = hits[i]? := by
  cases found : hits[i]? with
  | none => simp [columns, Columns.entry, found]
  | some h => simp [columns, Columns.entry, found]

theorem columns_push (hits : List (CaloHit F)) (h : CaloHit F) : (columns hits).push h = columns (hits ++ [h]) := by
  simp [columns, Columns.push]

theorem columns_erase (hits : List (CaloHit F)) (i : Nat) : (columns hits).erase i = columns (hits.eraseIdx i) := by
  simp [columns, Columns.erase, List.eraseIdx_map]

theorem vectors_transfer (blocks clus : List (CaloHit F)) (i : Nat) (b : CaloHit F) :
    (vectors blocks clus).transfer i b = vectors (blocks.eraseIdx i) (clus ++ [b]) := by
  simp only [vectors, Vectors.transfer, columns_push, columns_erase]

variable [Arith F]

def Apart (cut : F) (b : CaloHit F) (clus : List (CaloHit F)) : Prop := ∀ c ∈ clus, ¬ near cut b c

-- No block is near the cluster.
def Closed (cut : F) (blocks clus : List (CaloHit F)) : Prop := ∀ b ∈ blocks, Apart cut b clus

-- What one scan does: some transfers, or a comparison of block i with the
-- whole rest of the cluster.
theorem scan_transfers (cut : F) (blocks clus : List (CaloHit F)) (i i_ added : Nat) (bound : i < blocks.length) :
    ∃ i' blocks' clus' added', scan cut i i_ (vectors blocks clus) added = some (i', vectors blocks' clus', added') ∧
      Transfers (near cut) (blocks, clus) (blocks', clus') ∧ i' ≤ blocks'.length ∧ added ≤ added' ∧
      (added' = added → i' = i ∧ blocks' = blocks ∧ clus' = clus ∧ Apart cut blocks[i] (clus.drop i_)) := by
  rw [scan]
  by_cases inside : i_ < clus.length
  · have first : (vectors blocks clus).blocks.entry i = some blocks[i] := by
      rw [vectors, columns_entry, List.getElem?_eq_getElem bound]
    have second : (vectors blocks clus).clus.entry i_ = some clus[i_] := by
      rw [vectors, columns_entry, List.getElem?_eq_getElem inside]
    have listed : i_ < (vectors blocks clus).clus.E.length := by rwa [vectors, columns_length]
    rw [if_pos listed, first, second]
    simp only
    by_cases close : near cut blocks[i] clus[i_]
    · have move : Transfer (near cut) (blocks, clus) (blocks.eraseIdx i, clus ++ [blocks[i]]) :=
        .move blocks clus i blocks[i] clus[i_] (List.getElem?_eq_getElem bound) (List.getElem_mem inside) close
      have shorter : (blocks.eraseIdx i).length + 1 = blocks.length := by
        rw [List.length_eraseIdx_of_lt bound]
        omega
      have size : (vectors (blocks.eraseIdx i) (clus ++ [blocks[i]])).blocks.E.length = (blocks.eraseIdx i).length :=
        columns_length _
      rw [if_pos close, vectors_transfer, size]
      by_cases last : (blocks.eraseIdx i).length ≤ i
      · rw [if_pos last]
        by_cases more : 0 < i
        · rw [if_pos more]
          obtain ⟨i', blocks', clus', added', run, transfers, index, counted, _⟩ :=
            scan_transfers cut (blocks.eraseIdx i) (clus ++ [blocks[i]]) (i - 1) (i_ + 1) (added + 1) (by omega)
          exact ⟨i', blocks', clus', added', run, .head move transfers, index, by omega, by omega⟩
        · rw [if_neg more]
          exact ⟨i, _, _, added + 1, rfl, .single move, by omega, by omega, by omega⟩
      · rw [if_neg last]
        obtain ⟨i', blocks', clus', added', run, transfers, index, counted, _⟩ :=
          scan_transfers cut (blocks.eraseIdx i) (clus ++ [blocks[i]]) i (i_ + 1) (added + 1) (by omega)
        exact ⟨i', blocks', clus', added', run, .head move transfers, index, by omega, by omega⟩
    · rw [if_neg close]
      obtain ⟨i', blocks', clus', added', run, transfers, index, counted, quiet⟩ :=
        scan_transfers cut blocks clus i (i_ + 1) added bound
      refine ⟨i', blocks', clus', added', run, transfers, index, counted, fun none_added => ?_⟩
      obtain ⟨sameIndex, sameBlocks, sameClus, apart⟩ := quiet none_added
      refine ⟨sameIndex, sameBlocks, sameClus, ?_⟩
      rw [List.drop_eq_getElem_cons inside]
      intro c member
      rcases List.mem_cons.mp member with rfl | rest
      · exact close
      · exact apart c rest
  · have ended : ¬ i_ < (vectors blocks clus).clus.E.length := by rwa [vectors, columns_length]
    rw [if_neg ended]
    refine ⟨i, blocks, clus, added, rfl, .refl, by omega, by omega, fun _ => ⟨rfl, rfl, rfl, ?_⟩⟩
    rw [List.drop_eq_nil_of_le (by omega)]
    exact fun c member => absurd member List.not_mem_nil
termination_by (blocks.length, clus.length - i_)

theorem pass_transfers (cut : F) (n : Nat) (blocks clus : List (CaloHit F)) (added : Nat) (bound : n ≤ blocks.length) :
    ∃ blocks' clus' added', pass cut n (vectors blocks clus) added = some (vectors blocks' clus', added') ∧
      Transfers (near cut) (blocks, clus) (blocks', clus') ∧ added ≤ added' ∧
      (added' = added → blocks' = blocks ∧ clus' = clus ∧ ∀ b ∈ blocks.take n, Apart cut b clus) := by
  induction n using Nat.strong_induction_on generalizing blocks clus added with
  | _ n ih =>
      cases n with
      | zero => exact ⟨blocks, clus, added, by rw [pass], .refl, Nat.le_refl _, fun _ => ⟨rfl, rfl, by simp⟩⟩
      | succ i =>
          obtain ⟨i', mid, clusMid, addedMid, scanned, moved, index, counted, quiet⟩ :=
            scan_transfers cut blocks clus i 0 added (by omega)
          have lower := (scan_bounds cut i 0 _ added i' _ addedMid scanned).1
          obtain ⟨blocks', clus', added', run, transfers, more, rest⟩ := ih i' (by omega) mid clusMid addedMid index
          refine ⟨blocks', clus', added', by rw [pass, scanned]; exact run, moved.trans transfers, by omega, ?_⟩
          intro none_added
          obtain ⟨rfl, rfl, rfl, apart⟩ := quiet (by omega)
          obtain ⟨sameBlocks, sameClus, before⟩ := rest (by omega)
          refine ⟨sameBlocks, sameClus, ?_⟩
          rw [List.take_add_one, List.getElem?_eq_getElem (by omega), Option.toList_some]
          intro b member
          cases List.mem_append.mp member with
          | inl old => exact before b old
          | inr new =>
              rw [List.mem_singleton.mp new]
              simpa only [List.drop_zero] using apart

theorem grow_loop_closed (cut : F) (blocks clus : List (CaloHit F)) :
    ∃ blocks' clus', growLoop cut (vectors blocks clus) = some (vectors blocks' clus') ∧
      Transfers (near cut) (blocks, clus) (blocks', clus') ∧ Closed cut blocks' clus' := by
  have size : (vectors blocks clus).blocks.E.length = blocks.length := columns_length blocks
  obtain ⟨mid, clusMid, added, passed, moved, _, quiet⟩ :=
    pass_transfers cut blocks.length blocks clus 0 (Nat.le_refl _)
  rw [← size] at passed
  have bounds := (pass_bounds cut _ _ 0 _ added passed).1
  have midSize : (vectors mid clusMid).blocks.E.length = mid.length := columns_length mid
  rw [growLoop, passed]
  simp only
  by_cases more : 0 < added
  · rw [if_pos more]
    obtain ⟨blocks', clus', run, transfers, closed⟩ := grow_loop_closed cut mid clusMid
    exact ⟨blocks', clus', run, moved.trans transfers, closed⟩
  · rw [if_neg more]
    obtain ⟨rfl, rfl, apart⟩ := quiet (by omega)
    rw [List.take_length] at apart
    exact ⟨mid, clusMid, rfl, .refl, apart⟩
termination_by blocks.length
decreasing_by omega

theorem grow_closed (cut : F) (blocks clus : List (CaloHit F)) :
    ∃ blocks' clus', grow cut (vectors blocks clus) = some (vectors blocks' clus') ∧
      Transfers (near cut) (blocks, clus) (blocks', clus') ∧ Closed cut blocks' clus' := by
  have aligned : ((vectors blocks clus).blocks.aligned && (vectors blocks clus).clus.aligned) = true := by
    simp [vectors]
  rw [grow, if_pos aligned]
  exact grow_loop_closed cut blocks clus

theorem regrow_closed (cut : F) (blocks clus : List (CaloHit F)) (i_ : Nat)
    (useful : i_ < clus.length ∨ Closed cut blocks clus) :
    ∃ blocks' clus', regrow cut i_ (vectors blocks clus) = some (vectors blocks' clus') ∧
      Transfers (near cut) (blocks, clus) (blocks', clus') ∧ Closed cut blocks' clus' := by
  rw [regrow]
  by_cases inside : i_ < clus.length
  · have listed : i_ < (vectors blocks clus).clus.E.length := by rwa [vectors, columns_length]
    obtain ⟨mid, clusMid, grown, moved, closed⟩ := grow_closed cut blocks clus
    have total : clusMid.length + mid.length = clus.length + blocks.length := by
      simpa only [vectors, columns_length] using grow_bounds cut _ _ grown
    rw [if_pos listed, grown]
    obtain ⟨blocks', clus', run, transfers, final⟩ := regrow_closed cut mid clusMid (i_ + 1) (.inr closed)
    exact ⟨blocks', clus', run, moved.trans transfers, final⟩
  · have ended : ¬ i_ < (vectors blocks clus).clus.E.length := by rwa [vectors, columns_length]
    rw [if_neg ended]
    exact ⟨blocks, clus, rfl, .refl, useful.resolve_left inside⟩
termination_by clus.length + blocks.length - i_
decreasing_by omega

theorem grow_hcal_closed (cut : F) (n : Nat) (blocks clus : List (CaloHit F)) (seeded : clus ≠ [])
    (useful : 0 < n ∨ Closed cut blocks clus) :
    ∃ blocks' clus', growHCal cut n (vectors blocks clus) = some (vectors blocks' clus') ∧
      Transfers (near cut) (blocks, clus) (blocks', clus') ∧ Closed cut blocks' clus' := by
  induction n generalizing blocks clus with
  | zero => exact ⟨blocks, clus, rfl, .refl, useful.resolve_left (Nat.lt_irrefl 0)⟩
  | succ n ih =>
      obtain ⟨mid, clusMid, grown, moved, closed⟩ :=
        regrow_closed cut blocks clus 0 (.inl (List.length_pos_of_ne_nil seeded))
      have kept : clusMid ≠ [] := by
        intro empty
        have before := transfers_extend _ _ _ moved
        rw [empty] at before
        exact seeded (List.prefix_nil.mp before)
      obtain ⟨blocks', clus', run, transfers, final⟩ := ih mid clusMid kept (.inr closed)
      exact ⟨blocks', clus', by rw [growHCal, grown]; exact run, moved.trans transfers, final⟩

end Solgem
