import Mathlib.Data.List.Perm.Basic
import Mathlib.Logic.Relation

set_option autoImplicit false

namespace Solgem.Lib

variable {A : Type}

-- What a chain of neighbours from the seed through the members can reach.
inductive Reachable (near : A → A → Prop) (members : List A) (seed : A) : A → Prop
  | seed : Reachable near members seed seed
  | step (c b : A) : Reachable near members seed c → b ∈ members → near b c → Reachable near members seed b

-- One element leaves the blocks because it is near an element of the cluster.
inductive Transfer (near : A → A → Prop) : List A × List A → List A × List A → Prop
  | move (blocks clus : List A) (i : Nat) (b c : A) : blocks[i]? = some b → c ∈ clus → near b c →
      Transfer near (blocks, clus) (blocks.eraseIdx i, clus ++ [b])

abbrev Transfers (near : A → A → Prop) := Relation.ReflTransGen (Transfer near)

theorem transfers_perm (near : A → A → Prop) (start final : List A × List A) (transfers : Transfers near start final) :
    (final.2 ++ final.1).Perm (start.2 ++ start.1) := by
  induction transfers with
  | refl => exact List.Perm.refl _
  | tail _ last ih =>
      obtain ⟨blocks, clus, i, b, c, found, _, _⟩ := last
      obtain ⟨bound, rfl⟩ := List.getElem?_eq_some_iff.mp found
      refine List.Perm.trans ?_ ih
      rw [List.append_assoc]
      exact (List.getElem_cons_eraseIdx_perm bound).append_left clus

theorem transfers_extend (near : A → A → Prop) (start final : List A × List A) (transfers : Transfers near start final) :
    start.2 <+: final.2 := by
  induction transfers with
  | refl => exact List.prefix_refl _
  | tail _ last ih =>
      obtain ⟨blocks, clus, i, b, c, _, _, _⟩ := last
      exact ih.trans (List.prefix_append clus [b])

theorem transfers_reachable (near : A → A → Prop) (members : List A) (seed : A) (start final : List A × List A)
    (transfers : Transfers near start final) (inside : ∀ b ∈ start.1, b ∈ members)
    (reached : ∀ c ∈ start.2, Reachable near members seed c) :
    (∀ b ∈ final.1, b ∈ members) ∧ ∀ c ∈ final.2, Reachable near members seed c := by
  induction transfers with
  | refl => exact ⟨inside, reached⟩
  | tail _ last ih =>
      obtain ⟨blocks, clus, i, b, c, found, listed, close⟩ := last
      obtain ⟨kept, chained⟩ := ih
      refine ⟨fun other member => kept other ((List.eraseIdx_sublist blocks i).subset member), ?_⟩
      intro d member
      cases List.mem_append.mp member with
      | inl old => exact chained d old
      | inr new =>
          rw [List.mem_singleton.mp new]
          exact Reachable.step c b (chained c listed) (kept b (List.mem_of_getElem? found)) close

-- The cluster is exactly what the seed reaches, and nothing is lost.
structure Component (near : A → A → Prop) (members : List A) (seed : A) (blocks clus : List A) : Prop where
  perm : (clus ++ blocks).Perm members
  inside : ∀ c ∈ clus, Reachable near members seed c
  outside : ∀ b ∈ blocks, ¬ Reachable near members seed b

theorem component_of_closed (near : A → A → Prop) (reflexive : ∀ a, near a a) (members : List A) (seed : A)
    (blocks final clus : List A) (perm : (seed :: blocks).Perm members)
    (transfers : Transfers near (blocks, [seed]) (final, clus)) (closed : ∀ b ∈ final, ∀ c ∈ clus, ¬ near b c) :
    Component near members seed final clus := by
  have seeded : seed ∈ clus := (transfers_extend near _ _ transfers).subset (List.mem_singleton_self seed)
  have all : (clus ++ final).Perm members := (transfers_perm near _ _ transfers).trans perm
  have reached := (transfers_reachable near members seed _ _ transfers
    (fun b member => perm.subset (List.mem_cons_of_mem seed member))
    (fun c member => by rw [List.mem_singleton.mp member]; exact Reachable.seed)).2
  have complete : ∀ a, Reachable near members seed a → a ∈ clus := by
    intro a chain
    induction chain with
    | seed => exact seeded
    | step c b _ member close ih =>
        cases List.mem_append.mp (all.symm.subset member) with
        | inl cluster => exact cluster
        | inr left => exact absurd close (closed b left c ih)
  exact ⟨all, reached, fun b member chain => closed b member b (complete b chain) (reflexive b)⟩

end Solgem.Lib
