import Solgem.Bench
import Solgem.DigitizerShape
import Solgem.SampleArrays

set_option autoImplicit false

namespace Solgem

open Lib DigitizedPlane Digitizer

-- fClusterRatio[its][i] of a strip record; the entries past fNsamp are empty.
def DigiGEMStrip.ratioAt {F : Type} (strip : DigiGEMStrip F) (its i : Nat) : Option Int := (strip.fClusterRatio.getD its [])[i]?

theorem ratio_at_read {F : Type} (strip : DigiGEMStrip F) (its i : Nat) (adc : Int) (found : strip.ratioAt its i = some adc) :
    arrayAt (strip.fClusterRatio.getD its []) 0 i = adc := by
  rw [arrayAt, if_pos (Int.natCast_nonneg i), Int.toNat_natCast, List.getD_eq_getElem?_getD]
  exact congrArg (fun entry => Option.getD entry 0) found

-- The loop of GetSBSMCHitInfo over six samples stays in bounds.
def Decodable {F : Type} (strip : DigiGEMStrip F) : Prop := ∀ i < strip.fClusters.length, ∀ its < 6, (strip.ratioAt its i).isSome

variable {F : Type} [Arith F] {rng : Rng F} {fails : Fault → Prop}

-- Every access to the per-sample arrays: what the constructor of the planes
-- did, what the calls on them do next, and what the decoder reads.
structure SamplesInBounds (su : Setup F) (d : Digitizer F) : Prop where
  construct : ∀ ic < su.fNChambers, ∀ ip, (SampleArrays.new (su.freshPlane ic ip).fNStrips (su.freshPlane ic ip).fNSamples).isSome
  clear : ∀ ic < su.fNChambers, ∀ ip,
    (SampleArrays.clear (d.fDP ic ip).fNStrips (d.fDP ic ip).fNSamples (d.fDP ic ip).sampleArrays).isSome
  cumulate : ∀ ic < su.fNChambers, ∀ ip, ∀ vv : GEMHit F,
    (∀ j < vv.fSize.toNat, 0 ≤ vv.getIdx j ∧ vv.getIdx j < (d.fDP ic ip).fNStrips) →
      (SampleArrays.cumulate (d.fDP ic ip).fNSamples vv (d.fDP ic ip).sampleArrays).isSome
  tree : ∀ ic < su.fNChambers, ∀ ip, ∀ istrip < (d.fDP ic ip).fNStrips, ∀ ss < min MC_MAXSAMP (d.fDP ic ip).fNSamples,
    (SampleArrays.getStripClusterADC (d.fDP ic ip).sampleArrays istrip ss).isSome
  decode : ∀ r ∈ d.fEvent.fGEMStrips, Decodable r

-- The entries of every sample belong to the clusters of the strip.
def Aligned (p : DigitizedPlane F) : Prop := ∀ s, ∀ k < p.fNSamples, (p.fStripClusterADC k s).length = (p.fStripClusters s).length

theorem aligned_accept (p : DigitizedPlane F) (aligned : Aligned p) (c : Contribution F) (time charge : F) :
    Aligned (p.accept c time charge) := by
  intro s k sample
  rw [accept_samples] at sample
  rw [accept_cluster_adc p c time charge s k sample, accept_clusters]
  have old := aligned s k sample
  by_cases here : s = c.strip
  · rw [here, Function.update_self, if_pos rfl, List.length_append, List.length_append, ← here, old]
    cases entry : c.entry <;> simp [Contribution.clusterADC, Contribution.cluster, entry]
  · rw [Function.update_of_ne here, if_neg (Ne.symm here), List.append_nil, old]

structure PlanesKeep (P : DigitizedPlane F → Prop) (records : List (DigiGEMStrip F)) (d : Digitizer F) : Prop where
  planes : ∀ ic ip, P (d.fDP ic ip)
  strips : d.fEvent.fGEMStrips = records

namespace Digitizer

section
variable (P : DigitizedPlane F → Prop) (accept : ∀ q c time charge, P q → P (q.accept c time charge)) (records : List (DigiGEMStrip F))

omit [Arith F] in
theorem update_plane_keep (d : Digitizer F) (keep : PlanesKeep P records d) (ic : Nat) (ip : Fin 2) (p : DigitizedPlane F) (holds : P p) :
    PlanesKeep P records (d.updatePlane ic ip p) := by
  refine ⟨fun ic' ip' => ?_, keep.strips⟩
  rw [update_plane_read]
  split
  · exact holds
  · exact keep.planes ic' ip'

include accept

theorem cumulate_hit_keep (su : Setup F) (d : Digitizer F) (h : GEMHitData F) (id : Int) (keep : PlanesKeep P records d)
    (any : ∀ fault, fails fault) (st : rng.State) :
    Ensures fails (fun d' _ => PlanesKeep P records d') ((d.cumulateHit su h id : Draw rng _) st) := by
  rw [cumulateHit]
  cases d.fdh with
  | none => exact keep
  | some vv =>
      have each : ∀ ip st, Ensures fails (fun p _ => P p)
          (((d.fDP h.fGem ip).cumulate su.ct (.ran h.fGem ip) (vv ip) (Setup.itype h) id : Draw rng _) st) := fun ip st =>
        ensures_of_ok _ _ any (fun p st' completed => cumulate_keeps P accept _ _ _ p _ _ _ st st' completed (keep.planes h.fGem ip))
      refine ensures_bind _ _ _ _ st (each 0 st) fun first st1 kept => ?_
      refine ensures_bind _ _ _ _ st1 (each 1 st1) fun second st2 kept' => ?_
      have once := update_plane_keep P records d keep h.fGem 0 first kept
      have twice := update_plane_keep P records _ once h.fGem 1 second kept'
      exact ⟨twice.planes, twice.strips⟩

theorem digitize_hit_keep (su : Setup F) (fSource : Int) (trigger_jitter : F) (d : Digitizer F) (h : GEMHitData F)
    (keep : PlanesKeep P records d) (any : ∀ fault, fails fault) (st : rng.State) :
    Ensures fails (fun d' _ => PlanesKeep P records d') ((digitizeHit su fSource trigger_jitter d h : Draw rng _) st) := by
  refine digitize_hit_ensures su fSource trigger_jitter d h st _ (fun _ => keep) (fun ch _ => ?_)
  refine digitize_accepted_ensures su fSource trigger_jitter d h ch st _ (any _) (fun _ _ _ _ => any _) ?_
  intro ion _ time_zero fdh st' _ _
  refine cumulate_hit_keep P accept records su _ h _ ?_ any st'
  have recorded : ∀ cluster, (d.fEvent.recordHit cluster).fGEMStrips = d.fEvent.fGEMStrips := fun _ => rfl
  rw [set_tree_hit_state]
  exact ⟨keep.planes, (recorded _).trans keep.strips⟩

theorem additive_digitize_keep (su : Setup F) (d : Digitizer F) (gdata : SimHitData F) (keep : PlanesKeep P records d)
    (any : ∀ fault, fails fault) (st : rng.State) :
    Ensures fails (fun d' _ => PlanesKeep P records d') ((d.additiveDigitize su gdata : Draw rng _) st) := by
  refine ensures_mono _ _ ?_ _ (additive_digitize_ensures su d gdata st (fun _ d => PlanesKeep P records d) keep
    (fun trigger_jitter _ h d st _ kept => digitize_hit_keep P accept records su gdata.fSource trigger_jitter d h kept any st))
  rintro d' _ (⟨_, same⟩ | ⟨_, looped, kept, cleared⟩)
  · rw [same]
    exact keep
  · rw [cleared]
    exact ⟨kept.planes, kept.strips⟩

end

end Digitizer

-- A strip record with the entries of all samples, one for every cluster.
structure SampledRecord (su : Setup F) (r : DigiGEMStrip F) : Prop where
  chamber : 0 < su.fNChambers
  rows : r.fClusterRatio.length = su.par.fEleSamplingPoints
  entries : ∀ row ∈ r.fClusterRatio, row.length = r.fClusters.length

structure Sampled (su : Setup F) (d : Digitizer F) : Prop where
  steady : Steady su d
  aligned : ∀ ic ip, Aligned (d.fDP ic ip)
  records : ∀ r ∈ d.fEvent.fGEMStrips, SampledRecord su r

theorem fresh_samples (su : Setup F) (ic : Nat) (ip : Fin 2) : (su.freshPlane ic ip).fNSamples = su.par.fEleSamplingPoints := by
  have few := su.par.sampling_points
  have exact := uint16_exact su.par.fEleSamplingPoints (by omega) (by omega)
  change toUInt16 su.par.fEleSamplingPoints = _
  omega

theorem fresh_strips_wide (su : Setup F) (ic : Nat) (ip : Fin 2) : (su.freshPlane ic ip).fNStrips ≤ 65535 := by
  change toUInt16 _ ≤ 65535
  rw [toUInt16]
  omega

theorem steady_samples (su : Setup F) (d : Digitizer F) (steady : Steady su d) (ic : Nat) (ip : Fin 2) :
    (d.fDP ic ip).fNSamples = su.par.fEleSamplingPoints := (steady.shape ic ip).samples.trans (fresh_samples su ic ip)

theorem aligned_fresh (su : Setup F) (ic : Nat) (ip : Fin 2) : Aligned (su.freshPlane ic ip) := fun _ _ _ => rfl

theorem sampled_new (su : Setup F) (ion : IonState F) (fOTree : Option (List (SimEvent F))) :
    Sampled su (Digitizer.new su ion fOTree) :=
  ⟨steady_new su ion fOTree, aligned_fresh su, fun _ member => absurd member List.not_mem_nil⟩

theorem sampled_readout (su : Setup F) (fDP : Nat → Fin 2 → DigitizedPlane F)
    (samples : ∀ ic ip, (fDP ic ip).fNSamples = su.par.fEleSamplingPoints) (aligned : ∀ ic ip, Aligned (fDP ic ip))
    (strip : Nat × Fin 2 × Nat) (member : strip ∈ strips su fDP) (r : DigiGEMStrip F) (readout : Readout rng su fDP strip r) :
    SampledRecord su r := by
  have few := su.par.sampling_points
  have width : r.fNsamp = su.par.fEleSamplingPoints := by
    rw [readout.nsamp, samples, MC_MAXSAMP]
    omega
  refine ⟨Nat.zero_lt_of_lt ((mem_strips su fDP strip).mp member).1, ?_, fun row listed => ?_⟩
  · rw [readout.ratio, List.length_map, List.length_range, width]
  · rw [readout.ratio] at listed
    obtain ⟨k, sample, rfl⟩ := List.mem_map.mp listed
    rw [readout.clusters]
    refine aligned strip.1 strip.2.1 strip.2.2 k ?_
    rw [samples, ← width]
    exact List.mem_range.mp sample

theorem sampled_shows (su : Setup F) (d : Digitizer F) (steady : Steady su d) (aligned : ∀ ic ip, Aligned (d.fDP ic ip))
    (records : List (DigiGEMStrip F)) (shows : Shows rng su d.fDP records) : ∀ r ∈ records, SampledRecord su r := by
  intro r member
  obtain ⟨strip, listed, readout⟩ := forall₂_mem_right _ _ _ shows r member
  exact sampled_readout su d.fDP (steady_samples su d steady) aligned strip listed r readout

theorem additive_digitize_sampled (su : Setup F) (d : Digitizer F) (gdata : SimHitData F) (sampled : Sampled su d)
    (any : ∀ fault, fails fault) (st : rng.State) :
    Ensures fails (fun d' _ => Sampled su d') ((d.additiveDigitize su gdata : Draw rng _) st) := by
  have kept := additive_digitize_keep Aligned (fun q c time charge aligned => aligned_accept q aligned c time charge) d.fEvent.fGEMStrips
    su d gdata ⟨sampled.aligned, rfl⟩ any st
  refine ensures_mono _ _ ?_ _ (ensures_and _ _ _ (additive_digitize_steady su d gdata sampled.steady any st) kept)
  rintro d' _ ⟨steady, keep⟩
  refine ⟨steady, keep.planes, ?_⟩
  rw [keep.strips]
  exact sampled.records

theorem set_tree_strips_sampled (su : Setup F) (d : Digitizer F) (steady : Steady su d) (aligned : ∀ ic ip, Aligned (d.fDP ic ip))
    (any : ∀ fault, fails fault) (st : rng.State) :
    Ensures fails (fun d' _ => Sampled su d') ((d.setTreeStrips su : Draw rng _) st) := by
  refine ensures_mono _ _ ?_ _ (set_tree_strips_shows su d (fun _ => any _) st)
  rintro d' _ ⟨records, shows, rfl⟩
  exact ⟨⟨steady.idle, steady.shape, steady.quiet⟩, aligned, sampled_shows su d steady aligned records shows⟩

theorem call_keeps_sampled (su : Setup F) (d : Digitizer F) (sampled : Sampled su d) (c : Call F) (any : ∀ fault, fails fault)
    (st : rng.State) : Ensures fails (fun d' _ => Sampled su d') ((c.apply su d : Draw rng _) st) := by
  cases c with
  | digitize gdata =>
      refine additive_digitize_sampled su d.clearAll gdata ⟨steady_clear_all su d sampled.steady, ?_, ?_⟩ any st
      · rw [clear_all_planes su d sampled.steady]
        exact aligned_fresh su
      · exact fun _ member => absurd member List.not_mem_nil
  | additiveDigitize gdata => exact additive_digitize_sampled su d gdata sampled any st
  | noDigitize gdata =>
      obtain ⟨planes, avalanche⟩ := record_tree_hits_frame su gdata.fSource gdata.fHitData { d with fEvent := d.fEvent.clear }
      refine set_tree_strips_sampled su _ ⟨avalanche.trans sampled.steady.idle, ?_, ?_⟩ ?_ any st
      · rw [planes]
        exact sampled.steady.shape
      · rw [planes]
        exact sampled.steady.quiet
      · rw [planes]
        exact sampled.aligned
  | setTreeEvent tsgd f evnum =>
      refine ensures_mono _ _ ?_ _ (set_tree_event_ensures su d tsgd f evnum st)
      rintro d' _ ⟨e, ecal, scint, rfl, event⟩
      refine ⟨⟨sampled.steady.idle, sampled.steady.shape, sampled.steady.quiet⟩, sampled.aligned, ?_⟩
      rw [event.strips]
      exact fun _ member => absurd member List.not_mem_nil
  | setTreeStrips => exact set_tree_strips_sampled su d sampled.steady sampled.aligned any st
  | fillTree =>
      have planes : ∀ e flag tree, Steady su { d with fEvent := e, fFilledStrips := flag, fOTree := tree } := fun _ _ _ =>
        ⟨sampled.steady.idle, sampled.steady.shape, sampled.steady.quiet⟩
      refine fill_tree_ensures su d (fun _ => any _) st _ (fun _ => ⟨planes _ _ _, sampled.aligned, sampled.records⟩)
        (fun _ records shows => ⟨planes _ _ _, sampled.aligned, ?_⟩)
      exact sampled_shows su d sampled.steady sampled.aligned records shows

theorem reachable_sampled (su : Setup F) (d : Digitizer F) (reachable : Reachable rng su d) : Sampled su d := by
  induction reachable with
  | init ion fOTree => exact sampled_new su ion fOTree
  | call d d' c st st' _ ran ih => exact ensures_ok _ d' st' _ (call_keeps_sampled su d ih c (fun _ => trivial) st) ran

omit [Arith F] in
theorem decodable_iff (su : Setup F) (r : DigiGEMStrip F) (record : SampledRecord su r) :
    Decodable r ↔ 6 ≤ su.par.fEleSamplingPoints ∨ r.fClusters = [] := by
  constructor
  · intro decodable
    by_cases empty : r.fClusters = []
    · exact .inr empty
    · have found := decodable 0 (List.length_pos_iff.mpr empty) 5 (by decide)
      refine .inl (Nat.le_of_not_lt (fun few => ?_))
      have missing : r.fClusterRatio.getD 5 [] = [] := List.getD_eq_default _ _ (by rw [record.rows]; omega)
      rw [DigiGEMStrip.ratioAt, missing] at found
      cases found
  · rintro (enough | empty)
    · intro i below its sample
      have inside : its < r.fClusterRatio.length := by
        rw [record.rows]
        omega
      have row := record.entries _ (List.getElem_mem inside)
      rw [DigiGEMStrip.ratioAt, List.getD_eq_getElem _ _ inside, List.getElem?_eq_getElem (by rw [row]; exact below)]
      rfl
    · intro i below
      rw [empty] at below
      cases below

omit [Arith F] in
-- The strips of a plane that SetTreeStrips can read.
theorem tree_in_bounds_iff (p : DigitizedPlane F) (few : p.fNSamples ≤ 6) (wide : p.fNStrips ≤ 65535) :
    (∀ istrip < p.fNStrips, ∀ ss < min MC_MAXSAMP p.fNSamples, (SampleArrays.getStripClusterADC p.sampleArrays istrip ss).isSome) ↔
      p.fNSamples = 0 ∨ p.fNStrips ≤ 32768 := by
  have most : min MC_MAXSAMP p.fNSamples = p.fNSamples := Nat.min_eq_right (few.trans (by decide))
  rw [most]
  constructor
  · intro reads
    cases Nat.eq_zero_or_pos p.fNSamples with
    | inl none => exact .inl none
    | inr sample =>
        refine .inr (Nat.le_of_not_lt (fun many => ?_))
        have read := reads 32768 many 0 sample
        rw [SampleArrays.get_overrun p few wide 32768 0 (Nat.le_refl _) many sample] at read
        cases read
  · intro small istrip inside ss sample
    have bound : istrip < 32768 := by
      cases small with
      | inl none => exact absurd sample (by omega)
      | inr short => omega
    rw [SampleArrays.get_eq p few istrip ss bound inside sample]
    rfl

-- The chain stays in bounds exactly for six samples, or for fewer as long as
-- no strip of the event lists a cluster; and SetTreeStrips needs a Short_t
-- for the number of every strip.
theorem samples_in_bounds_iff (rng : Rng F) (su : Setup F) (d : Digitizer F) (reachable : Reachable rng su d) :
    SamplesInBounds su d ↔ su.fNChambers = 0 ∨
      su.par.fEleSamplingPoints ≤ 6 ∧
        (su.par.fEleSamplingPoints = 0 ∨ ∀ ic < su.fNChambers, ∀ ip, (su.freshPlane ic ip).fNStrips ≤ 32768) ∧
        (su.par.fEleSamplingPoints = 6 ∨ ∀ r ∈ d.fEvent.fGEMStrips, r.fClusters = []) := by
  have sampled := reachable_sampled su d reachable
  have samples := steady_samples su d sampled.steady
  have strips := fun ic ip => (sampled.steady.shape ic ip).strips
  have reads : su.par.fEleSamplingPoints ≤ 6 → ∀ ic ip,
      (∀ istrip < (d.fDP ic ip).fNStrips, ∀ ss < min MC_MAXSAMP (d.fDP ic ip).fNSamples,
        (SampleArrays.getStripClusterADC (d.fDP ic ip).sampleArrays istrip ss).isSome) ↔
      su.par.fEleSamplingPoints = 0 ∨ (su.freshPlane ic ip).fNStrips ≤ 32768 := by
    intro few ic ip
    rw [← samples ic ip, ← strips ic ip]
    exact tree_in_bounds_iff (d.fDP ic ip) ((samples ic ip).trans_le few) ((strips ic ip).trans_le (fresh_strips_wide su ic ip))
  constructor
  · intro bounds
    cases Nat.eq_zero_or_pos su.fNChambers with
    | inl none => exact .inl none
    | inr chamber =>
        have few := (SampleArrays.new_in_bounds_iff _ _).mp (bounds.construct 0 chamber 0)
        rw [fresh_samples] at few
        refine .inr ⟨few, ?_, ?_⟩
        · by_cases none : su.par.fEleSamplingPoints = 0
          · exact .inl none
          · exact .inr (fun ic below ip => ((reads few ic ip).mp (bounds.tree ic below ip)).resolve_left none)
        · by_cases six : su.par.fEleSamplingPoints = 6
          · exact .inl six
          · refine .inr (fun r member => ?_)
            exact ((decodable_iff su r (sampled.records r member)).mp (bounds.decode r member)).resolve_left (by omega)
  · rintro (none | ⟨few, small, quiet⟩)
    · have outside : ∀ ic, ¬ ic < su.fNChambers := by
        rw [none]
        exact Nat.not_lt_zero
      refine ⟨fun ic below => absurd below (outside ic), fun ic below => absurd below (outside ic),
        fun ic below => absurd below (outside ic), fun ic below => absurd below (outside ic), fun r member => ?_⟩
      exact absurd (sampled.records r member).chamber (outside 0)
    · have room : ∀ ic ip, (d.fDP ic ip).fNSamples ≤ 6 := fun ic ip => (samples ic ip).trans_le few
      refine ⟨fun ic _ ip => ?_, fun ic _ ip => ?_, fun ic _ ip vv hit => ?_, fun ic below ip => ?_, fun r member => ?_⟩
      · exact (SampleArrays.new_in_bounds_iff _ _).mpr ((fresh_samples su ic ip).trans_le few)
      · rw [clear_refines _ (room ic ip)]
        rfl
      · exact SampleArrays.cumulate_in_bounds _ (room ic ip) vv hit
      · exact (reads few ic ip).mpr (small.imp_right (fun short => short ic below ip))
      · exact (decodable_iff su r (sampled.records r member)).mpr (quiet.imp Eq.ge (fun empty => empty r member))

-- The shipped number of samples, before the first event.
theorem samples_in_bounds_new :
    let su := { bench 1 1 with par := { (bench 1 1).par with fEleSamplingPoints := readSamplingPoints 6, sampling_points := by decide } }
    SamplesInBounds su (Digitizer.new su unwritten none) := by
  intro su
  refine (samples_in_bounds_iff (Rng.scripted ℝ) su _ (Reachable.init unwritten none)).mpr
    (.inr ⟨by decide, .inr (fun ic below ip => ?_), .inl (by decide)⟩)
  have strips := bench_strips 1 1 (by decide) ic ip
  change (su.freshPlane ic ip).fNStrips = _ at strips
  rw [strips]
  split <;> omega

-- Twelve samples are corrected to ten; the constructor of the first plane
-- resizes past the six vectors.
theorem ten_samples_overrun :
    let su := { bench 1 1 with par := { (bench 1 1).par with fEleSamplingPoints := readSamplingPoints 12, sampling_points := by decide } }
    su.par.fEleSamplingPoints = 10 ∧ SampleArrays.new (su.freshPlane 0 0).fNStrips (su.freshPlane 0 0).fNSamples = none ∧
      ¬ SamplesInBounds su (Digitizer.new su unwritten none) := by
  intro su
  have overrun : SampleArrays.new (su.freshPlane 0 0).fNStrips (su.freshPlane 0 0).fNSamples = none :=
    SampleArrays.new_overrun _ _ (by rw [fresh_samples]; decide)
  refine ⟨rfl, overrun, fun bounds => ?_⟩
  have made := bounds.construct 0 Nat.zero_lt_one 0
  rw [overrun] at made
  cases made

end Solgem
