import Solgem.SimEvent

set_option autoImplicit false

namespace Solgem

variable {F : Type}

-- A calorimeter hit that passed the photoelectron cut.
structure CaloHit (F : Type) where
  E : F
  x : F
  y : F

-- The three parallel vectors E_, x_ and y_ of the blocks or of the cluster.
structure Columns (F : Type) where
  E : List F
  x : List F
  y : List F

namespace Columns

def empty : Columns F := ⟨[], [], []⟩

def push (c : Columns F) (h : CaloHit F) : Columns F := ⟨c.E ++ [h.E], c.x ++ [h.x], c.y ++ [h.y]⟩

def erase (c : Columns F) (i : Nat) : Columns F := ⟨c.E.eraseIdx i, c.x.eraseIdx i, c.y.eraseIdx i⟩

-- Entry i of each vector; there is none as soon as one index is out of range.
def entry (c : Columns F) (i : Nat) : Option (CaloHit F) :=
  match c.E[i]?, c.x[i]?, c.y[i]? with
  | some E, some x, some y => some ⟨E, x, y⟩
  | _, _, _ => none

def aligned (c : Columns F) : Bool := c.E.length == c.x.length && c.x.length == c.y.length

theorem entry_bound (c : Columns F) (i : Nat) (h : CaloHit F) (found : c.entry i = some h) : i < c.E.length := by
  cases energy : c.E[i]? with
  | none => simp [entry, energy] at found
  | some E => exact (List.getElem?_eq_some_iff.mp energy).1

end Columns

structure Vectors (F : Type) where
  blocks : Columns F
  clus : Columns F

-- Block i, read as b, goes to the end of the cluster.
def Vectors.transfer (v : Vectors F) (i : Nat) (b : CaloHit F) : Vectors F := ⟨v.blocks.erase i, v.clus.push b⟩

theorem transfer_lengths (v : Vectors F) (i : Nat) (b : CaloHit F) (found : v.blocks.entry i = some b) :
    (v.transfer i b).blocks.E.length + 1 = v.blocks.E.length ∧
      (v.transfer i b).clus.E.length = v.clus.E.length + 1 := by
  have bound := Columns.entry_bound v.blocks i b found
  simp only [Vectors.transfer, Columns.erase, Columns.push, List.length_eraseIdx_of_lt bound, List.length_append,
    List.length_singleton, and_true]
  omega

-- The vectors while the hits are read, with the largest energy so far.
structure SeedSearch (F : Type) where
  Edep_Max : F
  vectors : Vectors F

variable [Arith F]

def SeedSearch.start : SeedSearch F := ⟨0.0, ⟨Columns.empty, Columns.empty⟩⟩

-- A new largest energy sends the previous seed to the blocks.
def SeedSearch.addHit (s : SeedSearch F) (h : CaloHit F) : Option (SeedSearch F) :=
  let v := s.vectors
  if s.Edep_Max < h.E then
    if 0 < v.clus.E.length then
      (v.clus.entry 0).map (fun seed => ⟨h.E, ⟨v.blocks.push seed, Columns.empty.push h⟩⟩)
    else some ⟨h.E, ⟨v.blocks, v.clus.push h⟩⟩
  else some ⟨s.Edep_Max, ⟨v.blocks.push h, v.clus⟩⟩

def near (cut : F) (b c : CaloHit F) : Prop :=
  Arith.sqrt ((b.x - c.x) * (b.x - c.x) + (b.y - c.y) * (b.y - c.y)) < cut

instance (cut : F) (b c : CaloHit F) : Decidable (near cut b c) := by
  unfold near
  infer_instance

-- The loop over the cluster for block i. A transferred block is replaced by
-- the next one, by the one before if it was the last, or the loop ends; i_ is
-- not reset, and the cluster it runs over grows.
def scan (cut : F) (i i_ : Nat) (v : Vectors F) (added : Nat) : Option (Nat × Vectors F × Nat) :=
  if i_ < v.clus.E.length then
    match _found : v.blocks.entry i, v.clus.entry i_ with
    | some b, some c =>
        if near cut b c then
          if (v.transfer i b).blocks.E.length ≤ i then
            if 0 < i then scan cut (i - 1) (i_ + 1) (v.transfer i b) (added + 1) else some (i, v.transfer i b, added + 1)
          else scan cut i (i_ + 1) (v.transfer i b) (added + 1)
        else scan cut i (i_ + 1) v added
    | _, _ => none
  else some (i, v, added)
termination_by (v.blocks.E.length, v.clus.E.length - i_)
decreasing_by
  · have shorter := transfer_lengths v i b _found
    exact Prod.Lex.left _ _ (by omega)
  · have shorter := transfer_lengths v i b _found
    exact Prod.Lex.left _ _ (by omega)
  · exact Prod.Lex.right _ (by omega)

theorem scan_bounds (cut : F) (i i_ : Nat) (v : Vectors F) (added i' : Nat) (v' : Vectors F) (added' : Nat)
    (result : scan cut i i_ v added = some (i', v', added')) :
    i' ≤ i ∧ v'.blocks.E.length + added' = v.blocks.E.length + added ∧
      v'.clus.E.length + v'.blocks.E.length = v.clus.E.length + v.blocks.E.length := by
  fun_induction scan cut i i_ v added with
  | case1 i i_ v added _ b c found _ _ _ _ ih =>
      have shorter := transfer_lengths v i b found
      have rest := ih result
      omega
  | case2 i i_ v added _ b c found =>
      have shorter := transfer_lengths v i b found
      simp only [Option.some.injEq, Prod.mk.injEq] at result
      obtain ⟨rfl, rfl, rfl⟩ := result
      omega
  | case3 i i_ v added _ b c found _ _ _ ih =>
      have shorter := transfer_lengths v i b found
      have rest := ih result
      omega
  | case4 i i_ v added _ b c _ _ _ ih => exact ih result
  | case5 => cases result
  | case6 =>
      simp only [Option.some.injEq, Prod.mk.injEq] at result
      obtain ⟨rfl, rfl, rfl⟩ := result
      omega

-- The loop over the blocks, from index n - 1 down to 0.
def pass (cut : F) (n : Nat) (v : Vectors F) (added : Nat) : Option (Vectors F × Nat) :=
  match n with
  | 0 => some (v, added)
  | i + 1 =>
      match _scanned : scan cut i 0 v added with
      | none => none
      | some (i', v', added') => pass cut i' v' added'
termination_by n
decreasing_by
  have bounds := scan_bounds cut i 0 v added i' v' added' _scanned
  omega

theorem pass_bounds (cut : F) (n : Nat) (v : Vectors F) (added : Nat) (v' : Vectors F) (added' : Nat)
    (result : pass cut n v added = some (v', added')) :
    v'.blocks.E.length + added' = v.blocks.E.length + added ∧
      v'.clus.E.length + v'.blocks.E.length = v.clus.E.length + v.blocks.E.length := by
  fun_induction pass cut n v added with
  | case1 v added =>
      simp only [Option.some.injEq, Prod.mk.injEq] at result
      obtain ⟨rfl, rfl⟩ := result
      exact ⟨rfl, rfl⟩
  | case2 => cases result
  | case3 v added i i' v' added' scanned ih =>
      have first := scan_bounds cut i 0 v added i' v' added' scanned
      have rest := ih result
      omega

-- while( N_blocks_added > 0 )
def growLoop (cut : F) (v : Vectors F) : Option (Vectors F) :=
  match _passed : pass cut v.blocks.E.length v 0 with
  | none => none
  | some (v', N_blocks_added) => if 0 < N_blocks_added then growLoop cut v' else some v'
termination_by v.blocks.E.length
decreasing_by
  have bounds := pass_bounds cut v.blocks.E.length v 0 v' N_blocks_added _passed
  omega

theorem grow_loop_bounds (cut : F) (v v' : Vectors F) (result : growLoop cut v = some v') :
    v'.clus.E.length + v'.blocks.E.length = v.clus.E.length + v.blocks.E.length := by
  fun_induction growLoop cut v with
  | case1 => cases result
  | case2 v mid added passed _ ih =>
      have first := pass_bounds cut v.blocks.E.length v 0 mid added passed
      have rest := ih result
      omega
  | case3 v mid added passed _ =>
      have first := pass_bounds cut v.blocks.E.length v 0 mid added passed
      rw [← Option.some.inj result]
      omega

-- The loop runs under a sanity check of the vector sizes.
def grow (cut : F) (v : Vectors F) : Option (Vectors F) :=
  if v.blocks.aligned && v.clus.aligned then growLoop cut v else some v

theorem grow_bounds (cut : F) (v v' : Vectors F) (result : grow cut v = some v') :
    v'.clus.E.length + v'.blocks.E.length = v.clus.E.length + v.blocks.E.length := by
  rw [grow] at result
  split at result
  · exact grow_loop_bounds cut v v' result
  · rw [← Option.some.inj result]

-- The two loops GetHCalCluster wraps around the while loop. They count with
-- variables of their own, so the outer one runs once for every first block.
def regrow (cut : F) (i_ : Nat) (v : Vectors F) : Option (Vectors F) :=
  if i_ < v.clus.E.length then
    match _grown : grow cut v with
    | none => none
    | some v' => regrow cut (i_ + 1) v'
  else some v
termination_by v.clus.E.length + v.blocks.E.length - i_
decreasing_by
  have bounds := grow_bounds cut v v' _grown
  omega

def growHCal (cut : F) : Nat → Vectors F → Option (Vectors F)
  | 0, v => some v
  | n + 1, v => (regrow cut 0 v).bind (growHCal cut n)

end Solgem
