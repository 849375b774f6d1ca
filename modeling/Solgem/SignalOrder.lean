import Solgem.ClusterIDs
import Solgem.Lib.Listing

set_option autoImplicit false

namespace Solgem

open Lib Digitizer

variable {F : Type}

def GEMCluster.isSignal (c : GEMCluster F) : Bool := c.fType = 1 ∧ c.fSource = 0

def GEMHitData.isPrimary (h : GEMHitData F) : Bool := toInt32 h.fType = 1

-- What the class comment says of fNSignal and of the order of the clusters.
structure SignalFirst (background : Prop) (e : SimEvent F) : Prop where
  count : e.fNSignal = e.fGEMClust.countP GEMCluster.isSignal
  front : e.fGEMClust.take e.fNSignal = e.fGEMClust.filter GEMCluster.isSignal
  bounded : e.fNSignal ≤ e.fGEMClust.length
  equal : ¬ background → e.fNSignal = e.fGEMClust.length

-- Which clusters are signal clusters, in order, and that they are counted.
structure Labelled (labels : List Bool) (e : SimEvent F) : Prop where
  clusters : e.fGEMClust.map GEMCluster.isSignal = labels
  count : e.fNSignal = labels.countP id

theorem record_hit_labelled (e : SimEvent F) (labels : List Bool) (labelled : Labelled labels e) (c : GEMCluster F) :
    Labelled (labels ++ [c.isSignal]) (e.recordHit c) := by
  refine ⟨by rw [SimEvent.recordHit, List.map_append, labelled.clusters, List.map_singleton], ?_⟩
  rw [SimEvent.recordHit, List.countP_append, ← labelled.count, GEMCluster.isSignal]
  by_cases signal : c.fType = 1 ∧ c.fSource = 0
  · simp [signal]
  · simp [signal]

theorem labelled_signal_first (background : Prop) (labels : List Bool) (e : SimEvent F) (labelled : Labelled labels e) :
    SignalFirst background e ↔
      labels.Pairwise (fun earlier later => later = true → earlier = true) ∧ (¬ background → ∀ label ∈ labels, label = true) := by
  have counted : e.fNSignal = e.fGEMClust.countP GEMCluster.isSignal := by
    rw [labelled.count, ← labelled.clusters, List.countP_map, Function.id_comp]
  have ordered : labels.Pairwise (fun earlier later => later = true → earlier = true) ↔
      e.fGEMClust.take e.fNSignal = e.fGEMClust.filter GEMCluster.isSignal := by
    rw [← labelled.clusters, List.pairwise_map, counted, take_count_filter]
  have complete : (∀ label ∈ labels, label = true) ↔ e.fNSignal = e.fGEMClust.length := by
    rw [counted, List.countP_eq_length, ← labelled.clusters, List.forall_mem_map]
  rw [ordered, complete]
  exact ⟨fun first => ⟨first.front, first.equal⟩,
    fun parts => ⟨counted, parts.1, counted.trans_le List.countP_le_length, parts.2⟩⟩

variable [Arith F] {rng : Rng F}

-- The hits of a data set that get a cluster.
def Setup.recordedHits (su : Setup F) (gdata : SimHitData F) : List (GEMHitData F) :=
  gdata.fHitData.filter (fun h => (su.accepts h).isSome)

def Setup.PrimariesFirst (su : Setup F) (gdata : SimHitData F) : Prop :=
  (su.recordedHits gdata).Pairwise (fun earlier later => later.isPrimary = true → earlier.isPrimary = true)

-- The label of the cluster a hit of this source gets.
def labelOf (fSource : Int) (h : GEMHitData F) : Bool := toInt32 h.fType = 1 ∧ fSource = 0

theorem tree_hit_label (su : Setup F) (fSource : Int) (h : GEMHitData F) (ch : GEMChamber F)
    (fdh : Option (Fin 2 → GEMHit F)) (size : Nat) (t0 : F) :
    (su.treeHit fSource h ch fdh size t0).isSignal = labelOf fSource h := by
  rw [GEMCluster.isSignal, labelOf, decide_eq_decide, Setup.treeHit]

def Setup.labels (su : Setup F) (gdata : SimHitData F) : List Bool :=
  (su.recordedHits gdata).map (labelOf gdata.fSource)

theorem digitize_hit_labelled (su : Setup F) (fSource : Int) (trigger_jitter : F) (d : Digitizer F) (h : GEMHitData F)
    (labels : List Bool) (labelled : Labelled labels d.fEvent) (st : rng.State) :
    Ensures (fun _ => True)
      (fun d' _ => Labelled (labels ++ ([h].filter (fun h => (su.accepts h).isSome)).map (labelOf fSource)) d'.fEvent)
      ((digitizeHit su fSource trigger_jitter d h : Draw rng _) st) := by
  refine digitize_hit_ensures su fSource trigger_jitter d h st _ (fun skipped => ?_) (fun ch accepted => ?_)
  · simpa [skipped] using labelled
  · refine digitize_accepted_ensures su fSource trigger_jitter d h ch st _ trivial (fun _ _ _ _ => trivial) ?_
    intro ion _ time_zero fdh st' _ _
    refine ensures_mono _ _ ?_ _ (cumulate_hit_frame su _ h _ (fun _ => trivial) st')
    intro d' _ frame
    obtain ⟨fDP, released, same⟩ := frame
    rw [same, set_tree_hit_state]
    have recorded := record_hit_labelled d.fEvent labels labelled
      (su.treeHit fSource h ch fdh d.fEvent.fGEMClust.length time_zero)
    rw [tree_hit_label] at recorded
    simpa [accepted] using recorded

theorem additive_digitize_labelled (su : Setup F) (d : Digitizer F) (gdata : SimHitData F) (labels : List Bool)
    (labelled : Labelled labels d.fEvent) (st : rng.State) :
    Ensures (fun _ => True) (fun d' _ => Labelled (labels ++ su.labels gdata) d'.fEvent)
      ((d.additiveDigitize su gdata : Draw rng _) st) := by
  refine ensures_mono _ _ ?_ _ (additive_digitize_ensures su d gdata st
    (fun done d' => Labelled (labels ++ (done.filter (fun h => (su.accepts h).isSome)).map (labelOf gdata.fSource)) d'.fEvent)
    (by simpa using labelled) ?_)
  · intro d' _ outcome
    cases outcome with
    | inl unchanged => simpa [Setup.labels, Setup.recordedHits, unchanged.1, unchanged.2] using labelled
    | inr looped =>
        obtain ⟨_, looped, kept, cleared⟩ := looped
        rw [cleared]
        exact kept
  · intro trigger_jitter done h d1 st1 _ kept
    have step := digitize_hit_labelled su gdata.fSource trigger_jitter d1 h _ kept st1
    simpa [List.filter_append] using step

theorem build_event_labelled (su : Setup F) (d : Digitizer F) (signal : SimHitData F) (backgrounds : List (SimHitData F))
    (st : rng.State) :
    Ensures (fun _ => True) (fun d' _ => Labelled (su.labels signal ++ backgrounds.flatMap su.labels) d'.fEvent)
      ((buildEvent su d signal backgrounds : Draw rng _) st) := by
  have cleared : Labelled [] d.clearAll.fEvent := ⟨rfl, rfl⟩
  refine ensures_bind (fun d1 _ => Labelled (su.labels signal) d1.fEvent) _ _ _ st ?_ fun d1 st1 first => ?_
  · exact additive_digitize_labelled su d.clearAll signal [] cleared st
  · refine ensures_foldlM _ (fun done d' _ => Labelled (su.labels signal ++ done.flatMap su.labels) d'.fEvent) [] backgrounds
      (fun done gdata d2 st2 _ kept => ?_) d1 st1 (by simpa using first)
    have step := additive_digitize_labelled su d2 gdata _ kept st2
    simpa [List.flatMap_append] using step

theorem signal_labels (su : Setup F) (gdata : SimHitData F) (source : gdata.fSource = 0) :
    su.labels gdata = (su.recordedHits gdata).map GEMHitData.isPrimary := by
  refine List.map_congr_left fun h _ => ?_
  simp [labelOf, GEMHitData.isPrimary, source]

theorem background_labels (su : Setup F) (backgrounds : List (SimHitData F)) (sources : ∀ gdata ∈ backgrounds, 0 < gdata.fSource) :
    ∀ label ∈ backgrounds.flatMap su.labels, label = false := by
  intro label member
  obtain ⟨gdata, listed, found⟩ := List.mem_flatMap.mp member
  obtain ⟨h, _, same⟩ := List.mem_map.mp found
  have background : gdata.fSource ≠ 0 := (sources gdata listed).ne'
  simp [← same, labelOf, background]

-- Background clusters are behind the signal event, so the order of the hits
-- of the signal event decides.
theorem signal_clusters_first_exactly (su : Setup F) (d d' : Digitizer F) (signal : SimHitData F)
    (backgrounds : List (SimHitData F)) (source : signal.fSource = 0) (sources : ∀ gdata ∈ backgrounds, 0 < gdata.fSource)
    (st st' : rng.State) (built : (buildEvent su d signal backgrounds : Draw rng _) st = .ok (d', st')) :
    SignalFirst (backgrounds ≠ []) d'.fEvent ↔
      su.PrimariesFirst signal ∧ (backgrounds = [] → ∀ h ∈ su.recordedHits signal, h.isPrimary = true) := by
  have labelled := ensures_ok _ d' st' _ (build_event_labelled su d signal backgrounds st) built
  rw [labelled_signal_first _ _ _ labelled, signal_labels su signal source, not_not]
  have later := background_labels su backgrounds sources
  apply and_congr
  · rw [List.pairwise_append, List.pairwise_map, Setup.PrimariesFirst]
    refine ⟨fun parts => parts.1, fun ordered => ⟨ordered, ?_, ?_⟩⟩
    · refine List.pairwise_of_forall_mem_list fun earlier _ label member found => ?_
      exact Bool.noConfusion ((later label member).symm.trans found)
    · intro earlier _ label member found
      exact Bool.noConfusion ((later label member).symm.trans found)
  · refine imp_congr_right fun empty => ?_
    rw [empty, List.flatMap_nil, List.append_nil, List.forall_mem_map]

-- A secondary hit before a primary one: one signal cluster is counted, and
-- the cluster in front is not it.
theorem secondary_cluster_first :
    ∃ d', (buildEvent (bench 1 1) (Digitizer.new (bench 1 1) unwritten none) (typedData [2, 1]) [] : Draw (Rng.scripted ℝ) _) [] =
        .ok (d', []) ∧ d'.fEvent.fNSignal = 1 ∧ d'.fEvent.fGEMClust.map GEMCluster.isSignal = [false, true] ∧
      ¬ SignalFirst ([] ≠ ([] : List (SimHitData ℝ))) d'.fEvent := by
  obtain ⟨d', built⟩ := typed_event_built [2, 1] (Digitizer.new (bench 1 1) unwritten none) rfl
  have labelled := ensures_ok _ d' [] _ (@build_event_labelled ℝ _ (Rng.scripted ℝ) (bench 1 1) _ (typedData [2, 1]) [] []) built
  have accepted : ∀ fType, ((bench 1 1).accepts { crossing with fType := fType }).isSome = true := by
    intro fType
    rw [show (bench 1 1).accepts { crossing with fType := fType } = some (benchChamber 1) from bench_accepts 1 1]
    rfl
  have labels : (bench 1 1).labels (typedData [2, 1]) ++ ([] : List (SimHitData ℝ)).flatMap (bench 1 1).labels = [false, true] := by
    have second : toInt32 2 = 2 := int32_exact 2 (by omega) (by omega)
    have first : toInt32 1 = 1 := int32_exact 1 (by omega) (by omega)
    simp [Setup.labels, Setup.recordedHits, typedData, accepted, labelOf, first, second]
  rw [labels] at labelled
  refine ⟨d', built, labelled.count, labelled.clusters, ?_⟩
  rw [labelled_signal_first _ _ _ labelled]
  simp

theorem primary_hits_alone_first :
    ∃ d', (buildEvent (bench 1 1) (Digitizer.new (bench 1 1) unwritten none) (typedData [1, 1]) [] : Draw (Rng.scripted ℝ) _) [] =
        .ok (d', []) ∧
      (SignalFirst ([] ≠ ([] : List (SimHitData ℝ))) d'.fEvent ↔
        (bench 1 1).PrimariesFirst (typedData [1, 1]) ∧
          (([] : List (SimHitData ℝ)) = [] → ∀ h ∈ (bench 1 1).recordedHits (typedData [1, 1]), h.isPrimary = true)) := by
  obtain ⟨d', built⟩ := typed_event_built [1, 1] (Digitizer.new (bench 1 1) unwritten none) rfl
  exact ⟨d', built, @signal_clusters_first_exactly ℝ _ (Rng.scripted ℝ) (bench 1 1) _ d' (typedData [1, 1]) [] rfl
    (fun _ listed => nomatch listed) [] [] built⟩

end Solgem
