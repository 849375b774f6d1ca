import Mathlib.Data.List.Nodup
import Mathlib.Data.Fintype.Card
import Solgem.CumulateStep

set_option autoImplicit false

namespace Solgem

open Lib

variable {F : Type}

def maskAt (s : Nat) (ledger : List (Contribution F)) : Nat :=
  (entriesAt Contribution.strip s ledger).foldl (fun bits c => bits ||| c.mask) 0

-- The plane holds what the contributions since the last Clear add up to.
structure Represents (p : DigitizedPlane F) (ledger : List (Contribution F)) : Prop where
  adc : ∀ s k, k < p.fNSamples → p.getADC s k = totalAt Contribution.strip (fun c => c.samples k) s ledger
  tot : ∀ s, p.fTotADC s = totalAt Contribution.strip (fun c => c.sum p.fNSamples) s ledger
  type : ∀ s, p.fType s = maskAt s ledger
  clusters : ∀ s, p.fStripClusters s = listedAt Contribution.strip Contribution.cluster s ledger
  weights : ∀ s, p.fStripWeightInCluster s = listedAt Contribution.strip Contribution.weight s ledger
  clusterADC : ∀ s k, k < p.fNSamples →
    p.fStripClusterADC k s = listedAt Contribution.strip (Contribution.clusterADC k) s ledger
  distinct : p.fOverThr.Nodup
  overThr : ∀ i : Int, i ∈ p.fOverThr ↔ ∃ s < p.fNStrips, i = toInt16 s ∧ p.fThreshold < p.fTotADC s

-- What the asserts of Cumulate leave of a contribution.
def Contribution.Fits (c : Contribution F) (nstrip nsample : Nat) : Prop :=
  c.strip < nstrip ∧ ∀ k < nsample, 0 ≤ c.samples k

theorem mask_at_append (s : Nat) (ledger : List (Contribution F)) (c : Contribution F) :
    maskAt s (ledger ++ [c]) = if c.strip = s then maskAt s ledger ||| c.mask else maskAt s ledger := by
  rw [maskAt, entries_at_append]
  by_cases same : c.strip = s <;> simp [maskAt, same]

theorem contribution_sum_nonneg (c : Contribution F) (n : Nat) (counts : ∀ k < n, 0 ≤ c.samples k) : 0 ≤ c.sum n := by
  apply List.sum_nonneg
  intro x member
  obtain ⟨k, below, rfl⟩ := List.mem_map.mp member
  exact counts k (List.mem_range.mp below)

theorem missing_strip_room (name : Nat → Int) (strips : List Int) (n s : Nat) (distinct : strips.Nodup)
    (named : ∀ i ∈ strips, ∃ k < n, i = name k) (below : s < n) (missing : name s ∉ strips) : strips.length < n := by
  have inside : name s :: strips ⊆ (List.range n).map name := by
    intro i member
    have found : ∃ k < n, i = name k := by
      rcases List.mem_cons.mp member with rfl | rest
      · exact ⟨s, below, rfl⟩
      · exact named i rest
    obtain ⟨k, bound, same⟩ := found
    exact List.mem_map.mpr ⟨k, List.mem_range.mpr bound, same.symm⟩
  have larger := (List.Nodup.subperm (List.nodup_cons.mpr ⟨missing, distinct⟩) inside).length_le
  rw [List.length_cons, List.length_map, List.length_range] at larger
  omega

namespace DigitizedPlane

variable [Arith F]

theorem represents_clear (p : DigitizedPlane F) (threshold : 0 ≤ p.fThreshold) : Represents p.clear [] where
  adc s k _ := rfl
  tot s := rfl
  type s := rfl
  clusters s := rfl
  weights s := rfl
  clusterADC s k _ := rfl
  distinct := List.nodup_nil
  overThr i := by
    have quiet : ¬ p.fThreshold < 0 := by omega
    simp [clear, quiet]

omit [Arith F] in
theorem quiet_unlisted (p : DigitizedPlane F) (ledger : List (Contribution F)) (represents : Represents p ledger)
    (wide : p.fNStrips ≤ 65535) (s : Nat) (below : s < p.fNStrips) (quiet : ¬ p.fThreshold < p.fTotADC s) :
    toInt16 s ∉ p.fOverThr := by
  intro member
  obtain ⟨k, bound, same, above⟩ := (represents.overThr _).mp member
  exact quiet (by rwa [int16_inj s k (by omega) (by omega) same])

theorem represents_room (p : DigitizedPlane F) (ledger : List (Contribution F)) (represents : Represents p ledger)
    (wide : p.fNStrips ≤ 65535) (c : Contribution F) (time charge : F) (below : c.strip < p.fNStrips) :
    p.Room c time charge := by
  intro crossed
  have quiet : ¬ p.fThreshold < p.fTotADC c.strip := by
    simp only [crosses, Bool.and_eq_true, Bool.not_eq_true', decide_eq_false_iff_not] at crossed
    exact crossed.1
  refine missing_strip_room (fun k => toInt16 k) p.fOverThr p.fNStrips c.strip represents.distinct (fun i member => ?_) below
    (quiet_unlisted p ledger represents wide c.strip below quiet)
  obtain ⟨s, bound, same, _⟩ := (represents.overThr i).mp member
  exact ⟨s, bound, same⟩

section
variable (p : DigitizedPlane F) (c : Contribution F) (time charge : F)

@[simp] theorem accept_samples : (p.accept c time charge).fNSamples = p.fNSamples := by
  rw [accept, absorbed_frame]
  rfl

@[simp] theorem accept_strips : (p.accept c time charge).fNStrips = p.fNStrips := by
  rw [accept, absorbed_frame]
  rfl

@[simp] theorem accept_threshold : (p.accept c time charge).fThreshold = p.fThreshold := by
  rw [accept, absorbed_frame]
  rfl

theorem accept_type : (p.accept c time charge).fType = Function.update p.fType c.strip (p.fType c.strip ||| c.mask) := by
  rw [accept, absorbed_frame]
  rfl

theorem accept_clusters : (p.accept c time charge).fStripClusters =
    Function.update p.fStripClusters c.strip (p.fStripClusters c.strip ++ c.cluster.toList) := by
  rw [accept, absorbed_frame]
  rfl

theorem accept_weights : (p.accept c time charge).fStripWeightInCluster =
    Function.update p.fStripWeightInCluster c.strip (p.fStripWeightInCluster c.strip ++ c.weight.toList) := by
  rw [accept, absorbed_frame]
  rfl

theorem accept_tot (s : Nat) :
    (p.accept c time charge).fTotADC s = p.fTotADC s + if c.strip = s then c.sum p.fNSamples else 0 :=
  absorb_tot _ _ _ _ _ _

theorem accept_adc (s k : Nat) (sample : k < p.fNSamples) :
    (p.accept c time charge).getADC s k = p.getADC s k + if c.strip = s then c.samples k else 0 := by
  have added := absorb_adc (p.mark c.strip c.mask time charge) c.strip c.samples c.entry.isSome p.fNSamples s k
    (Nat.le_refl _) sample
  simp only [sample, and_true] at added
  exact added

theorem accept_cluster_adc (s k : Nat) (sample : k < p.fNSamples) :
    (p.accept c time charge).fStripClusterADC k s =
      p.fStripClusterADC k s ++ if c.strip = s then (c.clusterADC k).toList else [] := by
  have added := absorb_cluster_adc (p.mark c.strip c.mask time charge) c.strip c.samples c.entry.isSome p.fNSamples s k
  have listed : (if c.strip = s ∧ c.entry.isSome ∧ k < p.fNSamples then [c.samples k] else []) =
      if c.strip = s then (c.clusterADC k).toList else [] := by
    cases entry : c.entry <;> simp [Contribution.clusterADC, entry, sample]
  exact added.trans (congrArg _ listed)

theorem accept_over_thr : (p.accept c time charge).fOverThr =
    if ¬ p.fThreshold < p.fTotADC c.strip ∧ p.fThreshold < p.fTotADC c.strip + c.sum p.fNSamples
    then p.fOverThr ++ [toInt16 c.strip] else p.fOverThr := by
  have total : (p.absorbed c time charge).fTotADC c.strip = p.fTotADC c.strip + c.sum p.fNSamples := by
    have added := accept_tot p c time charge c.strip
    rwa [if_pos rfl] at added
  have entries : (p.absorbed c time charge).fOverThr = p.fOverThr := by
    rw [absorbed_frame]
    rfl
  have level : (p.absorbed c time charge).fThreshold = p.fThreshold := by
    rw [absorbed_frame]
    rfl
  simp [accept, crosses, total, entries, level]

end

theorem accept_over (p : DigitizedPlane F) (ledger : List (Contribution F)) (represents : Represents p ledger)
    (c : Contribution F) (time charge : F) (fits : c.Fits p.fNStrips p.fNSamples) (wide : p.fNStrips ≤ 65535) :
    (p.accept c time charge).fOverThr.Nodup ∧ ∀ i : Int, i ∈ (p.accept c time charge).fOverThr ↔
      ∃ s < p.fNStrips, i = toInt16 s ∧ p.fThreshold < (p.accept c time charge).fTotADC s := by
  have nonneg := contribution_sum_nonneg c p.fNSamples fits.2
  have rises : ∀ s, p.fThreshold < (p.accept c time charge).fTotADC s ↔ p.fThreshold < p.fTotADC s ∨
      (c.strip = s ∧ p.fThreshold < p.fTotADC s + c.sum p.fNSamples) := by
    intro s
    rw [accept_tot]
    by_cases same : c.strip = s
    · simp only [same, if_true, true_and]
      omega
    · simp [same]
  simp only [rises, accept_over_thr]
  by_cases crossed : ¬ p.fThreshold < p.fTotADC c.strip ∧ p.fThreshold < p.fTotADC c.strip + c.sum p.fNSamples
  · rw [if_pos crossed]
    refine ⟨?_, fun i => ?_⟩
    · exact List.nodup_append.mpr ⟨represents.distinct, List.nodup_singleton _, by
        intro i member j last same
        rw [List.mem_singleton.mp last] at same
        exact quiet_unlisted p ledger represents wide c.strip fits.1 crossed.1 (same ▸ member)⟩
    · rw [List.mem_append, represents.overThr, List.mem_singleton]
      constructor
      · rintro (⟨s, below, name, above⟩ | name)
        · exact ⟨s, below, name, .inl above⟩
        · exact ⟨c.strip, fits.1, name, .inr ⟨rfl, crossed.2⟩⟩
      · rintro ⟨s, below, name, above | ⟨same, _⟩⟩
        · exact .inl ⟨s, below, name, above⟩
        · exact .inr (by rw [name, same])
  · rw [if_neg crossed]
    refine ⟨represents.distinct, fun i => ?_⟩
    rw [represents.overThr]
    constructor
    · rintro ⟨s, below, name, above⟩
      exact ⟨s, below, name, .inl above⟩
    · rintro ⟨s, below, name, above | ⟨same, above⟩⟩
      · exact ⟨s, below, name, above⟩
      · subst same
        exact ⟨c.strip, below, name, Decidable.byContradiction fun quiet => crossed ⟨quiet, above⟩⟩

theorem represents_accept (p : DigitizedPlane F) (ledger : List (Contribution F)) (represents : Represents p ledger)
    (c : Contribution F) (time charge : F) (fits : c.Fits p.fNStrips p.fNSamples) (wide : p.fNStrips ≤ 65535) :
    Represents (p.accept c time charge) (ledger ++ [c]) where
  adc s k sample := by
    rw [accept_samples] at sample
    rw [accept_adc p c time charge s k sample, total_at_append, represents.adc s k sample]
  tot s := by
    rw [accept_tot, accept_samples, total_at_append, represents.tot s]
  type s := by
    rw [accept_type, mask_at_append]
    by_cases same : c.strip = s
    · simp [← same, represents.type]
    · simp [same, Ne.symm same, represents.type]
  clusters s := by
    rw [accept_clusters, listed_at_append]
    by_cases same : c.strip = s
    · simp [← same, represents.clusters]
    · simp [same, Ne.symm same, represents.clusters]
  weights s := by
    rw [accept_weights, listed_at_append]
    by_cases same : c.strip = s
    · simp [← same, represents.weights]
    · simp [same, Ne.symm same, represents.weights]
  clusterADC s k sample := by
    rw [accept_samples] at sample
    rw [accept_cluster_adc p c time charge s k sample, listed_at_append, represents.clusterADC s k sample]
  distinct := (accept_over p ledger represents c time charge fits wide).1
  overThr i := by
    rw [accept_strips, accept_threshold]
    exact (accept_over p ledger represents c time charge fits wide).2 i

end DigitizedPlane

end Solgem
