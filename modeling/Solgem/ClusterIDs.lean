import Solgem.Bench

set_option autoImplicit false

namespace Solgem

open Lib Digitizer

variable {F : Type} [Arith F] {rng : Rng F} {fails : Fault → Prop}

-- The IDs SetTreeHit handed out, in the order of the clusters.
def clusterIDs (e : SimEvent F) : List Int := e.fGEMClust.map GEMCluster.fID

-- The n-th cluster of an event is numbered n, as far as Short_t goes.
def Numbered (e : SimEvent F) : Prop :=
  clusterIDs e = (List.range e.fGEMClust.length).map (fun i : Nat => toInt16 (i + 1))

theorem numbered_append (su : Setup F) (e e' : SimEvent F) (numbered : Numbered e) (fSource : Int) (h : GEMHitData F)
    (ch : GEMChamber F) (fdh : Option (Fin 2 → GEMHit F)) (t0 : F)
    (recorded : e'.fGEMClust = e.fGEMClust ++ [su.treeHit fSource h ch fdh e.fGEMClust.length t0]) : Numbered e' := by
  rw [Numbered, clusterIDs] at numbered ⊢
  rw [recorded, List.map_append, numbered, List.length_append, List.length_singleton, List.range_succ, List.map_append,
    List.map_singleton, List.map_singleton, Setup.treeHit]

theorem additive_digitize_numbered (su : Setup F) (d : Digitizer F) (gdata : SimHitData F) (numbered : Numbered d.fEvent)
    (any : ∀ fault, fails fault) (st : rng.State) :
    Ensures fails (fun d' _ => Numbered d'.fEvent) ((d.additiveDigitize su gdata : Draw rng _) st) := by
  refine ensures_mono _ _ ?_ _ (additive_digitize_ensures su d gdata st (fun _ d => Numbered d.fEvent) numbered ?_)
  · rintro d' _ (⟨_, same⟩ | ⟨_, looped, kept, cleared⟩)
    · rw [same]
      exact numbered
    · rw [cleared]
      exact kept
  · intro trigger_jitter _ h d1 st1 _ kept
    refine ensures_mono _ _ ?_ _ (digitize_hit_effect su gdata.fSource trigger_jitter d1 h any st1)
    intro d2 _ effect
    rcases effect.recorded with same | ⟨fSource, ch, fdh, t0, appended⟩
    · rw [Numbered, clusterIDs, same]
      exact kept
    · exact numbered_append su d1.fEvent d2.fEvent kept fSource h ch fdh t0 appended

-- One event before it is written: Digitize and any number of AdditiveDigitize.
def buildEvent (su : Setup F) (d : Digitizer F) (gdata : SimHitData F) (more : List (SimHitData F)) : Draw rng (Digitizer F) := do
  let d ← d.digitize su gdata
  more.foldlM (additiveDigitize su) d

def acceptedHits (su : Setup F) (gdata : SimHitData F) : Nat := gdata.fHitData.countP (fun h => (su.accepts h).isSome)

theorem build_event_numbered (su : Setup F) (d : Digitizer F) (gdata : SimHitData F) (more : List (SimHitData F))
    (any : ∀ fault, fails fault) (st : rng.State) :
    Ensures fails (fun d' _ => Numbered d'.fEvent ∧ d'.fEvent.fGEMClust.length = ((gdata :: more).map (acceptedHits su)).sum)
      ((buildEvent su d gdata more : Draw rng _) st) := by
  have step : ∀ (d : Digitizer F) (n : Nat) (gdata : SimHitData F) (st : rng.State), Numbered d.fEvent →
      d.fEvent.fGEMClust.length = n → Ensures fails (fun d' _ => Numbered d'.fEvent ∧
        d'.fEvent.fGEMClust.length = n + acceptedHits su gdata) ((d.additiveDigitize su gdata : Draw rng _) st) := by
    intro d n gdata st numbered count
    refine ensures_and _ _ _ (additive_digitize_numbered su d gdata numbered any st) ?_
    refine ensures_mono _ _ ?_ _ (additive_digitize_effect su d gdata any st)
    rintro d' _ ⟨_, grown⟩
    rw [grown, count, acceptedHits]
  refine ensures_bind _ _ _ _ st (step d.clearAll 0 gdata st rfl rfl) ?_
  rintro d1 st1 first
  refine ensures_mono _ _ ?_ _ (ensures_foldlM (additiveDigitize su) (fun done d _ => Numbered d.fEvent ∧
    d.fEvent.fGEMClust.length = acceptedHits su gdata + (done.map (acceptedHits su)).sum) [] more ?_ d1 st1
    ⟨first.1, by simpa using first.2⟩)
  · rintro d2 _ ⟨numbered, count⟩
    exact ⟨numbered, by simpa using count⟩
  · rintro done gdata' d2 st2 _ ⟨numbered, count⟩
    refine ensures_mono _ _ ?_ _ (step d2 _ gdata' st2 numbered count)
    rintro d3 _ ⟨kept, grown⟩
    refine ⟨kept, ?_⟩
    rw [grown, List.map_append, List.sum_append, List.map_singleton, List.sum_singleton, Nat.add_assoc]

theorem int16_wraps : toInt16 32768 = -32768 := by
  decide

omit [Arith F] in
theorem numbered_distinct_iff (e : SimEvent F) (numbered : Numbered e) :
    (∀ id ∈ clusterIDs e, 0 < id) ∧ (clusterIDs e).Nodup ↔ e.fGEMClust.length ≤ 32767 := by
  rw [numbered]
  constructor
  · rintro ⟨positive, _⟩
    by_contra large
    have wrapped := positive (toInt16 ((32767 : Nat) + 1)) (List.mem_map.mpr ⟨32767, List.mem_range.mpr (by omega), rfl⟩)
    rw [show ((32767 : Nat) : Int) + 1 = 32768 by norm_num, int16_wraps] at wrapped
    omega
  · intro small
    have exact : ∀ i ∈ List.range e.fGEMClust.length, toInt16 ((i : Int) + 1) = i + 1 := by
      intro i member
      have below := List.mem_range.mp member
      exact int16_exact _ (by omega) (by omega)
    rw [List.map_congr_left exact]
    refine ⟨fun id member => ?_, List.Nodup.map (fun i j same => ?_) List.nodup_range⟩
    · obtain ⟨i, _, rfl⟩ := List.mem_map.mp member
      omega
    · simpa using same

-- The IDs of an event are positive and distinct exactly when no more than
-- 32767 hits were accepted.
theorem cluster_ids_distinct_iff (rng : Rng F) (su : Setup F) (d d' : Digitizer F) (gdata : SimHitData F)
    (more : List (SimHitData F)) (st st' : rng.State) (ran : (buildEvent su d gdata more : Draw rng _) st = .ok (d', st')) :
    (∀ id ∈ clusterIDs d'.fEvent, 0 < id) ∧ (clusterIDs d'.fEvent).Nodup ↔
      ((gdata :: more).map (acceptedHits su)).sum ≤ 32767 := by
  have built : Ensures (fun _ => True) _ ((buildEvent su d gdata more : Draw rng _) st) :=
    build_event_numbered su d gdata more (fun _ => trivial) st
  obtain ⟨numbered, count⟩ := ensures_ok _ d' st' _ built ran
  rw [numbered_distinct_iff d'.fEvent numbered, count]

theorem cluster_ids_distinct_iff_crossing :
    ∃ d', (buildEvent (bench 1 1) (Digitizer.new (bench 1 1) unwritten none) crossingData [] : Draw (Rng.scripted ℝ) _) [] =
        .ok (d', []) ∧
      ((∀ id ∈ clusterIDs d'.fEvent, 0 < id) ∧ (clusterIDs d'.fEvent).Nodup ↔
        (([crossingData] : List (SimHitData ℝ)).map (acceptedHits (bench 1 1))).sum ≤ 32767) := by
  have ran : (buildEvent (bench 1 1) (Digitizer.new (bench 1 1) unwritten none) crossingData [] : Draw (Rng.scripted ℝ) _) [] = _ :=
    (@draw_bind_of ℝ (Rng.scripted ℝ) _ _ _ _ _ [] [] (bench_no_ion 1 1 (Digitizer.new (bench 1 1) unwritten none).clearAll rfl [] rfl))
  exact ⟨_, ran, cluster_ids_distinct_iff (Rng.scripted ℝ) (bench 1 1) _ _ crossingData [] [] [] ran⟩

-- Crossing particles of the given types.
noncomputable def typedData (fTypes : List Nat) : SimHitData ℝ :=
  ⟨0, 0, 0, fTypes.map (fun fType => { crossing with fType := fType })⟩

theorem typed_hits_run (fTypes : List Nat) (d : Digitizer ℝ) (idle : d.fdh = none) :
    ∃ d', ((typedData fTypes).fHitData.foldlM (digitizeHit (bench 1 1) 0 0) d : Draw (Rng.scripted ℝ) _) [] = .ok (d', []) := by
  induction fTypes generalizing d with
  | nil => exact ⟨d, rfl⟩
  | cons fType rest ih =>
      obtain ⟨d1, hit, released⟩ : ∃ d1, (digitizeHit (bench 1 1) 0 0 d { crossing with fType := fType } :
          Draw (Rng.scripted ℝ) _) [] = .ok (d1, []) ∧ d1.fdh = none := ⟨_, bench_hit_no_ion 1 1 fType d idle [] rfl, idle⟩
      obtain ⟨d', ran⟩ := ih d1 released
      exact ⟨d', (@draw_bind_of ℝ (Rng.scripted ℝ) _ _ _ _ _ [] [] hit).trans ran⟩

theorem typed_event_built (fTypes : List Nat) (d : Digitizer ℝ) (idle : d.fdh = none) :
    ∃ d', (buildEvent (bench 1 1) d (typedData fTypes) [] : Draw (Rng.scripted ℝ) _) [] = .ok (d', []) := by
  cases fTypes with
  | nil => exact ⟨d.clearAll, rfl⟩
  | cons fType rest =>
      obtain ⟨looped, ran⟩ := typed_hits_run (fType :: rest) d.clearAll idle
      refine ⟨{ looped with fFilledStrips := false }, ?_⟩
      refine (@draw_bind_of ℝ (Rng.scripted ℝ) _ _ _ _ { looped with fFilledStrips := false } [] [] ?_).trans rfl
      refine (@draw_bind_of ℝ (Rng.scripted ℝ) _ _ _ _ 0 [] [] (bench_jitter [])).trans ?_
      exact @draw_bind_of ℝ (Rng.scripted ℝ) _ _ _ _ looped [] [] ran

noncomputable def crowd (n : Nat) : SimHitData ℝ := ⟨0, 0, 0, List.replicate n crossing⟩

-- 32768 hits: the last cluster gets the number -32768.
theorem crowded_event_wraps :
    ∃ d', (buildEvent (bench 1 1) (Digitizer.new (bench 1 1) unwritten none) (crowd 32768) [] : Draw (Rng.scripted ℝ) _) [] =
        .ok (d', []) ∧ ¬ ((∀ id ∈ clusterIDs d'.fEvent, 0 < id) ∧ (clusterIDs d'.fEvent).Nodup) := by
  have typed : crowd 32768 = typedData (List.replicate 32768 1) := by
    rw [crowd, typedData, List.map_replicate]
    rfl
  obtain ⟨d', ran⟩ := typed_event_built (List.replicate 32768 1) (Digitizer.new (bench 1 1) unwritten none) rfl
  rw [← typed] at ran
  have built : Ensures (fun _ => True) _ ((buildEvent (bench 1 1) (Digitizer.new (bench 1 1) unwritten none) (crowd 32768) [] :
      Draw (Rng.scripted ℝ) _) []) :=
    @build_event_numbered ℝ _ (Rng.scripted ℝ) _ (bench 1 1) _ (crowd 32768) [] (fun _ => trivial) []
  obtain ⟨numbered, count⟩ := ensures_ok _ _ _ _ built ran
  have accepted : acceptedHits (bench 1 1) (crowd 32768) = 32768 := by
    rw [acceptedHits, crowd, List.countP_replicate, bench_accepts]
    rfl
  refine ⟨_, ran, fun distinct => ?_⟩
  have small := (numbered_distinct_iff _ numbered).mp distinct
  rw [count, List.map_singleton, List.sum_singleton, accepted] at small
  omega

end Solgem
