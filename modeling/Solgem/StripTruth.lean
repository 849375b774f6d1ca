import Mathlib.Algebra.BigOperators.Group.List.Basic
import Solgem.MCTruth

set_option autoImplicit false

namespace Solgem

open Lib

section
variable {F : Type} [Arith F]

def isSignal (fSignalInfo : List SignalInfo) (c : GEMCluster F) : Bool :=
  decide (c.fType = kPrimaryType ∧ c.fSource = kPrimarySource ∧ ∃ info ∈ fSignalInfo, c.fPID = info.pid)

omit [Arith F] in
theorem signal_id_found (fSignalInfo : List SignalInfo) (c : GEMCluster F) :
    (signalID fSignalInfo c = -1 ∧ ¬ (c.fType = kPrimaryType ∧ ∃ info ∈ fSignalInfo, c.fPID = info.pid)) ∨
      (c.fType = kPrimaryType ∧ ∃ (i : Nat) (info : SignalInfo), signalID fSignalInfo c = i ∧ fSignalInfo[i]? = some info ∧
        c.fPID = info.pid) := by
  have loop := foldl_invariant (fun (id : Int) (info : SignalInfo × Nat) => if c.fType = 1 ∧ c.fPID = info.1.pid then (info.2 : Int) else id)
    (fun done id => (id = -1 ∧ ∀ e ∈ done, ¬ (c.fType = 1 ∧ c.fPID = e.1.pid)) ∨
      ∃ e ∈ fSignalInfo.zipIdx, id = e.2 ∧ c.fType = 1 ∧ c.fPID = e.1.pid)
    [] fSignalInfo.zipIdx ?_ (-1) (.inl ⟨rfl, by simp⟩)
  · rcases loop with ⟨missed, unmatched⟩ | ⟨e, member, found, primary, same⟩
    · refine .inl ⟨missed, ?_⟩
      rintro ⟨primary, info, listed, same⟩
      obtain ⟨i, bound, rfl⟩ := List.mem_iff_getElem.mp listed
      exact unmatched (fSignalInfo[i], i) (List.mem_zipIdx_iff_getElem?.mpr (List.getElem?_eq_getElem bound)) ⟨primary, same⟩
    · exact .inr ⟨primary, e.2, e.1, found, List.mem_zipIdx_iff_getElem?.mp member, same⟩
  · intro done e id member kept
    by_cases here : c.fType = 1 ∧ c.fPID = e.1.pid
    · rw [if_pos here]
      exact .inr ⟨e, member, rfl, here⟩
    · rw [if_neg here]
      rcases kept with ⟨missed, unmatched⟩ | found
      · refine .inl ⟨missed, fun other listed => ?_⟩
        cases List.mem_append.mp listed with
        | inl old => exact unmatched other old
        | inr new =>
            rw [List.mem_singleton.mp new]
            exact here
      · exact .inr found

-- What the asserts of the loop demand of one entry of fClusters, and that its
-- module is known to the geometry.
def Attributed (m : DBManager F) (fGEMClust : List (GEMCluster F)) (strip : DigiGEMStrip F) (id : Int) : Prop :=
  ∃ c xoffset, clusterOf fGEMClust id = some c ∧ c.fID = id ∧ strip.fPlane = c.fPlane ∧ strip.fSector = c.fSector ∧
    m.getXOffset c.fPlane c.fModule = some xoffset

def contributions (fGEMClust : List (GEMCluster F)) (strip : DigiGEMStrip F) : List (GEMCluster F) :=
  strip.fClusters.filterMap (clusterOf fGEMClust)

end

-- The mean of no values is 0.
noncomputable def mean (xs : List ℝ) : ℝ := xs.sum / xs.length

noncomputable def position (m : DBManager ℝ) (strip : DigiGEMStrip ℝ) (c : GEMCluster ℝ) : ℝ :=
  if strip.fProj = 0 then c.fXProj 0 + (m.getXOffset c.fPlane c.fModule).getD 0 else c.fXProj 1

theorem cluster_pos (m : DBManager ℝ) (strip : DigiGEMStrip ℝ) (c : GEMCluster ℝ) (proj : strip.fProj = 0 ∨ strip.fProj = 1)
    (xoffset : ℝ) (known : m.getXOffset c.fPlane c.fModule = some xoffset) :
    clusterPos m strip c = some (position m strip c) := by
  cases proj with
  | inl u =>
      rw [clusterPos, position, projAt, known, u, if_pos rfl, if_pos rfl]
      simp [Arith.ofInt]
  | inr v =>
      rw [clusterPos, position, projAt, known, v, if_neg one_ne_zero, if_pos rfl, if_neg one_ne_zero]
      simp [Arith.ofInt]

structure Gathered (m : DBManager ℝ) (fSignalInfo : List SignalInfo) (strip : DigiGEMStrip ℝ) (cs : List (GEMCluster ℝ))
    (acc : MCHitInfo ℝ × ℝ) : Prop where
  overlap : acc.2 = (cs.filter (isSignal fSignalInfo)).length
  contam : acc.1.fContam = (cs.filter (fun c => !isSignal fSignalInfo c)).length
  quiet : cs.filter (isSignal fSignalInfo) = [] → acc.1.fMCTrack = 0 ∧ acc.1.fMCPos = (cs.map (position m strip)).sum
  found : cs.filter (isSignal fSignalInfo) ≠ [] → 0 < acc.1.fMCTrack ∧
    acc.1.fMCPos = ((cs.filter (isSignal fSignalInfo)).map (position m strip)).sum ∧
    acc.1.fMCTime = ((cs.filter (isSignal fSignalInfo)).map GEMCluster.fTime).sum

theorem gathered_signal (m : DBManager ℝ) (fSignalInfo : List SignalInfo) (strip : DigiGEMStrip ℝ) (cs : List (GEMCluster ℝ))
    (mc mc' : MCHitInfo ℝ) (n : ℝ) (gathered : Gathered m fSignalInfo strip cs (mc, n)) (c : GEMCluster ℝ)
    (signal : isSignal fSignalInfo c = true) (contam : mc'.fContam = mc.fContam) (track : 0 < mc'.fMCTrack)
    (first : ¬ 0 < mc.fMCTrack → mc'.fMCPos = position m strip c ∧ mc'.fMCTime = c.fTime)
    (more : 0 < mc.fMCTrack → mc'.fMCPos = mc.fMCPos + position m strip c ∧ mc'.fMCTime = mc.fMCTime + c.fTime) :
    Gathered m fSignalInfo strip (cs ++ [c]) (mc', n + 1.0) := by
  have grown : (cs ++ [c]).filter (isSignal fSignalInfo) = cs.filter (isSignal fSignalInfo) ++ [c] := by
    rw [List.filter_append, List.filter_singleton, signal, cond_true]
  have others : (cs ++ [c]).filter (fun c => !isSignal fSignalInfo c) = cs.filter (fun c => !isSignal fSignalInfo c) := by
    rw [List.filter_append, List.filter_singleton, signal, Bool.not_true, cond_false, List.append_nil]
  have overlap : n = ((cs.filter (isSignal fSignalInfo)).length : ℝ) := gathered.overlap
  refine ⟨?_, ?_, fun empty => ?_, fun _ => ⟨track, ?_⟩⟩
  · rw [grown, List.length_append, List.length_singleton, Nat.cast_add, Nat.cast_one, overlap]
    norm_num
  · rw [others, contam]
    exact gathered.contam
  · rw [grown] at empty
    simp at empty
  · rw [grown, List.map_append, List.map_append, List.sum_append, List.sum_append, List.map_singleton, List.map_singleton,
      List.sum_singleton, List.sum_singleton]
    by_cases empty : cs.filter (isSignal fSignalInfo) = []
    · have none_yet : mc.fMCTrack = 0 := (gathered.quiet empty).1
      obtain ⟨pos, time⟩ := first (by omega)
      rw [empty, pos, time]
      simp
    · obtain ⟨positive, posSum, timeSum⟩ := gathered.found empty
      obtain ⟨pos, time⟩ := more positive
      exact ⟨pos.trans (congrArg (· + _) posSum), time.trans (congrArg (· + _) timeSum)⟩

theorem gathered_background (m : DBManager ℝ) (fSignalInfo : List SignalInfo) (strip : DigiGEMStrip ℝ) (cs : List (GEMCluster ℝ))
    (mc mc' : MCHitInfo ℝ) (n : ℝ) (gathered : Gathered m fSignalInfo strip cs (mc, n)) (c : GEMCluster ℝ)
    (background : isSignal fSignalInfo c = false) (contam : mc'.fContam = mc.fContam + 1) (track : mc'.fMCTrack = mc.fMCTrack)
    (time : mc'.fMCTime = mc.fMCTime)
    (pos : mc'.fMCPos = if mc.fMCTrack = 0 then mc.fMCPos + position m strip c else mc.fMCPos) :
    Gathered m fSignalInfo strip (cs ++ [c]) (mc', n) := by
  have same : (cs ++ [c]).filter (isSignal fSignalInfo) = cs.filter (isSignal fSignalInfo) := by
    rw [List.filter_append, List.filter_singleton, background, cond_false, List.append_nil]
  have grown : (cs ++ [c]).filter (fun c => !isSignal fSignalInfo c) = cs.filter (fun c => !isSignal fSignalInfo c) ++ [c] := by
    rw [List.filter_append, List.filter_singleton, background, Bool.not_false, cond_true]
  have count : mc.fContam = ((cs.filter (fun c => !isSignal fSignalInfo c)).length : ℤ) := gathered.contam
  refine ⟨?_, ?_, fun empty => ?_, fun some_signal => ?_⟩
  · rw [same]
    exact gathered.overlap
  · rw [grown, List.length_append, List.length_singleton, Nat.cast_add, Nat.cast_one, contam, count]
  · rw [same] at empty
    obtain ⟨none_yet, posSum⟩ := gathered.quiet empty
    rw [if_pos none_yet] at pos
    rw [track, List.map_append, List.sum_append, List.map_singleton, List.sum_singleton]
    exact ⟨none_yet, pos.trans (congrArg (· + _) posSum)⟩
  · rw [same] at some_signal ⊢
    obtain ⟨positive, posSum, timeSum⟩ := gathered.found some_signal
    rw [if_neg (by have known : 0 < mc.fMCTrack := positive; omega)] at pos
    exact ⟨track ▸ positive, pos.trans posSum, time.trans timeSum⟩

theorem add_contribution_gathered (m : DBManager ℝ) (fSignalInfo : List SignalInfo) (tracks : ∀ info ∈ fSignalInfo, 0 < info.tid)
    (fGEMClust : List (GEMCluster ℝ)) (strip : DigiGEMStrip ℝ) (proj : strip.fProj = 0 ∨ strip.fProj = 1)
    (cs : List (GEMCluster ℝ)) (acc : MCHitInfo ℝ × ℝ) (gathered : Gathered m fSignalInfo strip cs acc) (id : Int) (i : Nat)
    (attributed : Attributed m fGEMClust strip id) :
    ∃ acc', addContribution m fSignalInfo fGEMClust strip acc (id, i) = some acc' ∧
      Gathered m fSignalInfo strip (cs ++ (clusterOf fGEMClust id).toList) acc' := by
  obtain ⟨c, xoffset, found, number, plane, sector, known⟩ := attributed
  obtain ⟨mc, n⟩ := acc
  have placed := cluster_pos m strip c proj xoffset known
  have asserted : c.fID = id - 1 + 1 ∧ strip.fPlane = c.fPlane ∧ strip.fSector = c.fSector := ⟨by omega, plane, sector⟩
  rw [addContribution, found, Option.toList_some]
  simp only [Option.bind_some, if_pos asserted, placed, Option.map_some]
  have counted : isSignal fSignalInfo c = false → ∃ acc', (
      if mc.fMCTrack = 0 then
        some ({ mc.addCluster strip c (id - 1) i with fContam := mc.fContam + 1, fMCPos := mc.fMCPos + position m strip c }, n)
      else some ({ mc.addCluster strip c (id - 1) i with fContam := mc.fContam + 1 }, n)) = some acc' ∧
      Gathered m fSignalInfo strip (cs ++ [c]) acc' := by
    intro background
    by_cases quiet : mc.fMCTrack = 0
    · rw [if_pos quiet]
      exact ⟨_, rfl, gathered_background m fSignalInfo strip cs mc _ n gathered c background rfl rfl rfl (if_pos quiet).symm⟩
    · rw [if_neg quiet]
      exact ⟨_, rfl, gathered_background m fSignalInfo strip cs mc _ n gathered c background rfl rfl rfl (if_neg quiet).symm⟩
  rcases signal_id_found fSignalInfo c with ⟨missed, unmatched⟩ | ⟨primary, k, info, matched, listed, same⟩
  · have background : isSignal fSignalInfo c = false := decide_eq_false (fun both => unmatched ⟨both.1, both.2.2⟩)
    have unsigned : ¬ (0 ≤ signalID fSignalInfo c ∧ c.fSource = kPrimarySource) := by omega
    rw [if_neg unsigned]
    exact counted background
  · by_cases source : c.fSource = kPrimarySource
    · have signal : isSignal fSignalInfo c = true :=
        decide_eq_true ⟨primary, source, info, List.mem_of_getElem? listed, same⟩
      have signed : 0 ≤ signalID fSignalInfo c ∧ c.fSource = kPrimarySource := ⟨by omega, source⟩
      rw [if_pos signed]
      by_cases later : 0 < mc.fMCTrack
      · exact ⟨_, if_pos later, gathered_signal m fSignalInfo strip cs mc _ n gathered c signal rfl later
          (fun none_yet => absurd later none_yet) (fun _ => ⟨rfl, rfl⟩)⟩
      · have kept : (mc.addCluster strip c (id - 1) i).fMCTrack = mc.fMCTrack := rfl
        rw [kept, if_neg later, matched, Int.toNat_natCast, listed, Option.map_some]
        exact ⟨_, rfl, gathered_signal m fSignalInfo strip cs mc _ n gathered c signal rfl (tracks info (List.mem_of_getElem? listed))
          (fun _ => ⟨rfl, rfl⟩) (fun positive => absurd positive later)⟩
    · have background : isSignal fSignalInfo c = false := decide_eq_false (fun both => source both.2.1)
      have unsigned : ¬ (0 ≤ signalID fSignalInfo c ∧ c.fSource = kPrimarySource) := fun both => source both.2
      rw [if_neg unsigned]
      exact counted background

theorem contributions_gathered (m : DBManager ℝ) (fSignalInfo : List SignalInfo) (tracks : ∀ info ∈ fSignalInfo, 0 < info.tid)
    (fGEMClust : List (GEMCluster ℝ)) (strip : DigiGEMStrip ℝ) (proj : strip.fProj = 0 ∨ strip.fProj = 1)
    (attributed : ∀ id ∈ strip.fClusters, Attributed m fGEMClust strip id) (mc : MCHitInfo ℝ)
    (initial : Gathered m fSignalInfo strip [] (mc, 0.0)) :
    ∃ acc, strip.fClusters.zipIdx.foldlM (addContribution m fSignalInfo fGEMClust strip) (mc, 0.0) = some acc ∧
      Gathered m fSignalInfo strip (contributions fGEMClust strip) acc := by
  have loop := run_total (fun acc e acc' => addContribution m fSignalInfo fGEMClust strip acc e = some acc')
    (fun done acc => Gathered m fSignalInfo strip (done.filterMap (fun e => clusterOf fGEMClust e.1)) acc)
    [] strip.fClusters.zipIdx ?_ (mc, 0.0) initial
  · obtain ⟨acc, run, gathered⟩ := loop
    refine ⟨acc, (foldlM_run _ _ _ _).mpr run, ?_⟩
    have ids : strip.fClusters.zipIdx.map Prod.fst = strip.fClusters := List.zipIdx_map_fst 0 strip.fClusters
    rw [contributions, ← ids, List.filterMap_map]
    exact gathered
  · rintro done ⟨id, i⟩ acc member gathered
    obtain ⟨acc', step, grown⟩ := add_contribution_gathered m fSignalInfo tracks fGEMClust strip proj _ acc gathered id i
      (attributed id (List.fst_mem_of_mem_zipIdx member))
    refine ⟨acc', step, ?_⟩
    have single : List.filterMap (fun e : Int × Nat => clusterOf fGEMClust e.1) [(id, i)] = (clusterOf fGEMClust id).toList := by
      cases found : clusterOf fGEMClust id <;> simp [found]
    rw [List.filterMap_append, single]
    exact grown

-- The truth of a strip with at least one signal contribution, and without.
structure Truth (m : DBManager ℝ) (fSignalInfo : List SignalInfo) (strip : DigiGEMStrip ℝ) (cs : List (GEMCluster ℝ))
    (mc : MCHitInfo ℝ) : Prop where
  signal : cs.filter (isSignal fSignalInfo) ≠ [] →
    mc.fMCPos = mean ((cs.filter (isSignal fSignalInfo)).map (position m strip)) ∧
    mc.fMCTime = mean ((cs.filter (isSignal fSignalInfo)).map GEMCluster.fTime) ∧
    0 < mc.fMCTrack ∧ mc.fContam = (cs.filter (fun c => !isSignal fSignalInfo c)).length
  background : cs.filter (isSignal fSignalInfo) = [] →
    mc.fMCTrack = 0 ∧ mc.fContam = cs.length ∧ mc.fMCPos = mean (cs.map (position m strip)) ∧ mc.fMCTime = strip.fTime1

theorem contributions_length (m : DBManager ℝ) (fGEMClust : List (GEMCluster ℝ)) (strip : DigiGEMStrip ℝ)
    (attributed : ∀ id ∈ strip.fClusters, Attributed m fGEMClust strip id) :
    (contributions fGEMClust strip).length = strip.fClusters.length := by
  rw [contributions, List.length_filterMap_eq_countP, List.countP_eq_length]
  intro id member
  obtain ⟨c, _, found, _⟩ := attributed id member
  rw [found, Option.isSome_some]

theorem strip_truth (m : DBManager ℝ) (fNReadOut : Int) (fSignalInfo : List SignalInfo) (tracks : ∀ info ∈ fSignalInfo, 0 < info.tid)
    (fGEMClust : List (GEMCluster ℝ)) (strip : DigiGEMStrip ℝ) (proj : strip.fProj = 0 ∨ strip.fProj = 1)
    (readout : strip.fProj < fNReadOut) (direct : inducedOnly strip.fSigType = false)
    (attributed : ∀ id ∈ strip.fClusters, Attributed m fGEMClust strip id) :
    ∃ mc, stripMCHitInfo m fNReadOut fSignalInfo fGEMClust strip = some mc ∧
      Truth m fSignalInfo strip (contributions fGEMClust strip) mc := by
  have inside : 0 ≤ strip.fProj ∧ strip.fProj < fNReadOut := by omega
  have initial : Gathered m fSignalInfo strip []
      ({ (MCHitInfo.new : MCHitInfo ℝ) with fSigType := strip.fSigType, fMCCharge := strip.fCharge }, 0.0) :=
    ⟨by norm_num, rfl, fun _ => ⟨rfl, by norm_num [MCHitInfo.new]⟩, fun impossible => absurd rfl impossible⟩
  obtain ⟨⟨mc, n⟩, run, gathered⟩ := contributions_gathered m fSignalInfo tracks fGEMClust strip proj attributed _ initial
  have size := contributions_length m fGEMClust strip attributed
  obtain ⟨overlap, contam, quiet, found⟩ := gathered
  rw [stripMCHitInfo, if_pos inside, direct, if_neg Bool.false_ne_true, run, Option.bind_some]
  by_cases empty : (contributions fGEMClust strip).filter (isSignal fSignalInfo) = []
  · obtain ⟨track, pos⟩ := quiet empty
    have all : (contributions fGEMClust strip).filter (fun c => !isSignal fSignalInfo c) = contributions fGEMClust strip := by
      rw [List.filter_eq_self]
      intro c member
      rw [Bool.not_eq_true', Bool.eq_false_iff]
      exact List.filter_eq_nil_iff.mp empty c member
    rw [all, size] at contam
    have asserted : strip.fClusters.length = 0 ∨ 0 < mc.fMCTrack ∨ 0 < mc.fContam := by
      rw [show mc.fContam = (strip.fClusters.length : ℤ) from contam]
      omega
    refine ⟨_, if_pos asserted, fun some_signal => absurd empty some_signal, fun _ => ?_⟩
    rw [if_pos (show mc.fMCTrack = 0 from track), mean, List.length_map, size]
    refine ⟨track, contam, ?_, rfl⟩
    have count : mc.fContam = (strip.fClusters.length : ℤ) := contam
    have total : mc.fMCPos = ((contributions fGEMClust strip).map (position m strip)).sum := pos
    rw [← total]
    by_cases many : 1 < mc.fContam
    · refine (if_pos many).trans (congrArg (mc.fMCPos / ·) ?_)
      rw [count]
      exact Int.cast_natCast _
    · refine (if_neg many).trans ?_
      cases Nat.lt_or_ge 0 strip.fClusters.length with
      | inl one =>
          have single : strip.fClusters.length = 1 := by omega
          rw [single, Nat.cast_one, div_one]
      | inr none_listed =>
          have no_cluster : contributions fGEMClust strip = [] := List.length_eq_zero_iff.mp (by omega)
          rw [total, no_cluster, List.map_nil, List.sum_nil, zero_div]
  · obtain ⟨positive, pos, time⟩ := found empty
    have asserted : strip.fClusters.length = 0 ∨ 0 < mc.fMCTrack ∨ 0 < mc.fContam := .inr (.inl positive)
    have track : ¬ mc.fMCTrack = 0 := by
      have known : 0 < mc.fMCTrack := positive
      omega
    refine ⟨_, if_pos asserted, fun _ => ?_, fun none_signal => absurd none_signal empty⟩
    rw [if_neg track, mean, mean, List.length_map, List.length_map]
    exact ⟨congrArg₂ (· / ·) pos overlap, congrArg₂ (· / ·) time overlap, positive, contam⟩

theorem mean_perm {xs ys : List ℝ} (perm : xs.Perm ys) : mean xs = mean ys := by
  rw [mean, mean, perm.sum_eq, perm.length_eq]

structure Reordered (strip strip' : DigiGEMStrip ℝ) : Prop where
  clusters : strip.fClusters.Perm strip'.fClusters
  plane : strip'.fPlane = strip.fPlane
  sector : strip'.fSector = strip.fSector
  proj : strip'.fProj = strip.fProj
  type : strip'.fSigType = strip.fSigType
  time : strip'.fTime1 = strip.fTime1

theorem truth_reordered (m : DBManager ℝ) (fSignalInfo : List SignalInfo) (strip strip' : DigiGEMStrip ℝ)
    (reordered : Reordered strip strip') (cs cs' : List (GEMCluster ℝ)) (perm : cs.Perm cs') (mc mc' : MCHitInfo ℝ)
    (truth : Truth m fSignalInfo strip cs mc) (truth' : Truth m fSignalInfo strip' cs' mc') :
    mc'.fMCPos = mc.fMCPos ∧ mc'.fMCTime = mc.fMCTime ∧ mc'.fContam = mc.fContam := by
  have placed : position m strip' = position m strip := by
    funext c
    rw [position, position, reordered.proj]
  have signals := perm.filter (isSignal fSignalInfo)
  by_cases empty : cs.filter (isSignal fSignalInfo) = []
  · obtain ⟨_, contam, pos, time⟩ := truth.background empty
    obtain ⟨_, contam', pos', time'⟩ := truth'.background (List.perm_nil.mp (empty ▸ signals.symm))
    refine ⟨?_, ?_, ?_⟩
    · rw [pos, pos', placed, mean_perm (perm.map _)]
    · rw [time, time', reordered.time]
    · rw [contam, contam', perm.length_eq]
  · obtain ⟨pos, time, _, contam⟩ := truth.signal empty
    obtain ⟨pos', time', _, contam'⟩ := truth'.signal (fun none_left => empty (List.perm_nil.mp (none_left ▸ signals)))
    refine ⟨?_, ?_, ?_⟩
    · rw [pos, pos', placed, mean_perm (signals.map _)]
    · rw [time, time', mean_perm (signals.map _)]
    · rw [contam, contam', (perm.filter _).length_eq]

def ReadsStrip (m : DBManager ℝ) (slots : SlotLayout) (fStripMap : List (Int × Nat)) (simEvent : SimEvent ℝ) (a : RocAddress)
    (strip : DigiGEMStrip ℝ) : Prop :=
  0 ≤ stripFromROC m slots fStripMap a ∧ simEvent.fGEMStrips[(stripFromROC m slots fStripMap a).toNat]? = some strip

theorem get_mc_hit_info (m : DBManager ℝ) (slots : SlotLayout) (fStripMap : List (Int × Nat)) (fNReadOut : Int)
    (fSignalInfo : List SignalInfo) (simEvent : SimEvent ℝ) (a : RocAddress) (strip : DigiGEMStrip ℝ)
    (reads : ReadsStrip m slots fStripMap simEvent a strip) :
    getSBSMCHitInfo m slots fStripMap fNReadOut fSignalInfo simEvent a =
      stripMCHitInfo m fNReadOut fSignalInfo simEvent.fGEMClust strip := by
  rw [getSBSMCHitInfo, if_pos reads.1, reads.2, Option.bind_some]

-- The truth of a channel is the mean over its signal contributions, if it has
-- any, whatever the order its clusters are listed in.
theorem mc_truth_is_mean (m : DBManager ℝ) (slots : SlotLayout) (fStripMap : List (Int × Nat)) (fNReadOut : Int)
    (fSignalInfo : List SignalInfo) (tracks : ∀ info ∈ fSignalInfo, 0 < info.tid) (simEvent : SimEvent ℝ) (a : RocAddress)
    (strip : DigiGEMStrip ℝ) (reads : ReadsStrip m slots fStripMap simEvent a strip)
    (proj : strip.fProj = 0 ∨ strip.fProj = 1) (readout : strip.fProj < fNReadOut) (direct : inducedOnly strip.fSigType = false)
    (attributed : ∀ id ∈ strip.fClusters, Attributed m simEvent.fGEMClust strip id) :
    ∃ mc, getSBSMCHitInfo m slots fStripMap fNReadOut fSignalInfo simEvent a = some mc ∧
      Truth m fSignalInfo strip (contributions simEvent.fGEMClust strip) mc ∧
      ∀ (simEvent' : SimEvent ℝ) (a' : RocAddress) (strip' : DigiGEMStrip ℝ), simEvent'.fGEMClust = simEvent.fGEMClust →
        ReadsStrip m slots fStripMap simEvent' a' strip' → Reordered strip strip' →
        ∃ mc', getSBSMCHitInfo m slots fStripMap fNReadOut fSignalInfo simEvent' a' = some mc' ∧
          mc'.fMCPos = mc.fMCPos ∧ mc'.fMCTime = mc.fMCTime ∧ mc'.fContam = mc.fContam := by
  obtain ⟨mc, result, truth⟩ := strip_truth m fNReadOut fSignalInfo tracks simEvent.fGEMClust strip proj readout direct attributed
  refine ⟨mc, (get_mc_hit_info _ _ _ _ _ _ _ _ reads).trans result, truth, ?_⟩
  intro simEvent' a' strip' same reads' reordered
  have attributed' : ∀ id ∈ strip'.fClusters, Attributed m simEvent.fGEMClust strip' id := by
    intro id member
    obtain ⟨c, xoffset, found, number, plane, sector, known⟩ := attributed id (reordered.clusters.mem_iff.mpr member)
    exact ⟨c, xoffset, found, number, reordered.plane.trans plane, reordered.sector.trans sector, known⟩
  obtain ⟨mc', result', truth'⟩ := strip_truth m fNReadOut fSignalInfo tracks simEvent.fGEMClust strip'
    (by rw [reordered.proj]; exact proj) (by rw [reordered.proj]; exact readout) (by rw [reordered.type]; exact direct) attributed'
  refine ⟨mc', ?_, truth_reordered m fSignalInfo strip strip' reordered _ _ (reordered.clusters.filterMap _) mc mc' truth truth'⟩
  rw [get_mc_hit_info _ _ _ _ _ _ _ _ reads', same]
  exact result'

-- One module; a strip that lists a background cluster and then a signal one.
def oneModule : DBManager ℝ where
  fNChamber := 1
  fNGEMPlane := 1
  fNModule := [1]
  fChanPerSlot := 128
  fg4sbsDetectorType := 0
  fmPMtoIgem := fun _ _ => none
  fmIgemtoPlane := fun _ => none
  fmIgemtoModule := fun _ => none
  fPMGeoInfo := fun _ => some [⟨1, 1, 1, 1, 1, 1⟩]

def contributor (id source : Int) (time x : ℝ) : GEMCluster ℝ where
  fID := id
  fSector := 0
  fPlane := 0
  fModule := 0
  fRealSector := none
  fSource := source
  fType := 1
  fTRID := 1
  fPID := 11
  fP := ⟨0, 0, 0⟩
  fPspec := ⟨0, 0, 0⟩
  fXEntry := ⟨0, 0, 0⟩
  fMCpos := ⟨0, 0, 0⟩
  fHitpos := ⟨0, 0, 0⟩
  fCharge := 1
  fTime := time
  fSize := fun _ => 1
  fStart := fun _ => 0
  fXProj := fun _ => x
  fVertex := ⟨0, 0, 0⟩

noncomputable def mixedStrip : DigiGEMStrip ℝ := ⟨0, 0, 0, 0, 0, 1, 1, 7.0, 1, [5], [2, 1], [[2, 3]], [0.5, 0.5]⟩

noncomputable def mixedEvent : SimEvent ℝ :=
  { (SimEvent.new : SimEvent ℝ) with fGEMClust := [contributor 1 0 5.0 2.0, contributor 2 1 6.0 3.0], fGEMStrips := [mixedStrip] }

theorem mc_truth_is_mean_mixed_strip :
    let slots : SlotLayout := ⟨30, by decide⟩
    let key := [(makeROCKey oneModule slots ⟨0, 4, 0⟩, 0)]
    ∃ mc, getSBSMCHitInfo oneModule slots key 2 [⟨11, 1⟩] mixedEvent ⟨0, 4, 0⟩ = some mc ∧
      Truth oneModule [⟨11, 1⟩] mixedStrip (contributions mixedEvent.fGEMClust mixedStrip) mc := by
  intro slots key
  have attributed : ∀ id ∈ mixedStrip.fClusters, Attributed oneModule mixedEvent.fGEMClust mixedStrip id := by
    intro id member
    rcases List.mem_cons.mp member with rfl | rest
    · exact ⟨contributor 2 1 6.0 3.0, 1, rfl, rfl, rfl, rfl, rfl⟩
    · rw [List.mem_singleton.mp rest]
      exact ⟨contributor 1 0 5.0 2.0, 1, rfl, rfl, rfl, rfl, rfl⟩
  obtain ⟨mc, result, truth, _⟩ := mc_truth_is_mean oneModule slots key 2 [⟨11, 1⟩]
    (fun info member => by rw [List.mem_singleton.mp member]; decide) mixedEvent ⟨0, 4, 0⟩ mixedStrip ⟨by decide, rfl⟩
    (.inl rfl) (by decide) (by decide) attributed
  exact ⟨mc, result, truth⟩

end Solgem
