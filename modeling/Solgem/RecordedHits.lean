import Solgem.SignalOrder

set_option autoImplicit false

namespace Solgem

open Lib Digitizer

section
variable {F : Type} [Arith F] {rng : Rng F} {fails : Fault → Prop}

-- The cluster of a hit, at the trigger jitter of its data set. A signal hit
-- has its own time; the drift time is that of the ions drawn last.
structure HitRecorded (su : Setup F) (fSource : Int) (trigger_jitter : F) (h : GEMHitData F) (c : GEMCluster F) : Prop where
  source : c.fSource = fSource
  hit : ∃ ch fdh size offset event_time drift, su.accepts h = some ch ∧ su.par.fTriggerOffset[h.fPlane]? = some offset ∧
    (fSource = 0 → event_time = Arith.single h.fTime) ∧
    c = su.treeHit fSource h ch fdh size (Setup.timeZero event_time offset drift trigger_jitter)

-- The clusters of a data set, one for each hit that is not skipped.
def SetRecorded (su : Setup F) (gdata : SimHitData F) (clusters : List (GEMCluster F)) : Prop :=
  ∃ trigger_jitter, List.Forall₂ (HitRecorded su gdata.fSource trigger_jitter) (su.recordedHits gdata) clusters

-- The clusters of an event are those of its data sets, one set after another.
def Recorded (su : Setup F) (sets : List (SimHitData F)) (clusters : List (GEMCluster F)) : Prop :=
  ∃ groups, List.Forall₂ (SetRecorded su) sets groups ∧ clusters = groups.flatten

theorem draw_event_time_signal (su : Setup F) (fSource : Int) (h : GEMHitData F) (st : rng.State) :
    Ensures fails (fun event_time _ => fSource = 0 → event_time = Arith.single h.fTime) ((su.drawEventTime fSource h : Draw rng _) st) := by
  rw [Setup.drawEventTime]
  by_cases background : fSource ≠ 0
  · rw [if_pos background]
    exact ensures_bind (fun _ _ => True) _ _ _ st trivial fun _ st' _ => ensures_pure _ _ st' fun signal => absurd signal background
  · rw [if_neg background]
    exact ensures_pure _ _ st fun _ => rfl

theorem digitize_accepted_recorded (su : Setup F) (fSource : Int) (trigger_jitter : F) (d : Digitizer F) (h : GEMHitData F)
    (ch : GEMChamber F) (accepted : su.accepts h = some ch) (any : ∀ fault, fails fault) (st : rng.State) :
    Ensures fails (fun d' _ => ∃ c, d'.fEvent.fGEMClust = d.fEvent.fGEMClust ++ [c] ∧ HitRecorded su fSource trigger_jitter h c)
      ((d.digitizeAccepted su fSource trigger_jitter h ch : Draw rng _) st) := by
  refine ensures_bind (fun _ _ => True) _ _ _ st (ensures_of_ok _ _ any (fun _ _ _ => trivial)) fun ion st1 _ => ?_
  refine ensures_bind _ _ _ _ st1 (draw_event_time_signal su fSource h st1) fun event_time st2 timed => ?_
  refine ensures_bind (fun offset _ => su.par.fTriggerOffset[h.fPlane]? = some offset) _ _ _ st2 ?_ fun offset st3 found => ?_
  · cases found : su.par.fTriggerOffset[h.fPlane]? with
    | none => exact any _
    | some offset => exact rfl
  refine ensures_bind (fun _ _ => True) _ _ _ st3 (ensures_of_ok _ _ any (fun _ _ _ => trivial)) fun fdh st4 _ => ?_
  refine ensures_mono _ _ ?_ _ (cumulate_hit_frame su _ h _ any st4)
  rintro d' _ ⟨fDP, released, rfl⟩
  rw [set_tree_hit_state]
  exact ⟨_, rfl, rfl, ch, fdh, _, offset, event_time, ion.fRTime0, accepted, found, timed, rfl⟩

theorem digitize_hit_recorded (su : Setup F) (fSource : Int) (trigger_jitter : F) (d : Digitizer F) (h : GEMHitData F)
    (any : ∀ fault, fails fault) (st : rng.State) :
    Ensures fails (fun d' _ => ∃ clusters, d'.fEvent.fGEMClust = d.fEvent.fGEMClust ++ clusters ∧
        List.Forall₂ (HitRecorded su fSource trigger_jitter) ([h].filter (fun h => (su.accepts h).isSome)) clusters)
      ((digitizeHit su fSource trigger_jitter d h : Draw rng _) st) := by
  refine digitize_hit_ensures su fSource trigger_jitter d h st _ (fun skipped => ?_) (fun ch accepted => ?_)
  · refine ⟨[], (List.append_nil _).symm, ?_⟩
    rw [List.filter_singleton, skipped]
    exact .nil
  · refine ensures_mono _ _ ?_ _ (digitize_accepted_recorded su fSource trigger_jitter d h ch accepted any st)
    rintro d' _ ⟨c, appended, recorded⟩
    refine ⟨[c], appended, ?_⟩
    rw [List.filter_singleton, accepted]
    exact .cons recorded .nil

theorem additive_digitize_recorded (su : Setup F) (d : Digitizer F) (gdata : SimHitData F) (any : ∀ fault, fails fault)
    (st : rng.State) :
    Ensures fails (fun d' _ => ∃ clusters, d'.fEvent.fGEMClust = d.fEvent.fGEMClust ++ clusters ∧ SetRecorded su gdata clusters)
      ((d.additiveDigitize su gdata : Draw rng _) st) := by
  rw [additiveDigitize]
  cases hits : gdata.fHitData with
  | nil =>
      refine ⟨[], (List.append_nil _).symm, 0.0, ?_⟩
      rw [Setup.recordedHits, hits]
      exact .nil
  | cons h rest =>
      refine ensures_bind (fun _ _ => True) _ _ _ st trivial fun trigger_jitter st1 _ => ?_
      refine ensures_bind (fun looped _ => ∃ clusters, looped.fEvent.fGEMClust = d.fEvent.fGEMClust ++ clusters ∧
        List.Forall₂ (HitRecorded su gdata.fSource trigger_jitter) ((h :: rest).filter (fun h => (su.accepts h).isSome)) clusters)
        _ _ _ st1 ?_ ?_
      · refine ensures_foldlM _ (fun past looped _ => ∃ clusters, looped.fEvent.fGEMClust = d.fEvent.fGEMClust ++ clusters ∧
          List.Forall₂ (HitRecorded su gdata.fSource trigger_jitter) (past.filter (fun h => (su.accepts h).isSome)) clusters) []
          (h :: rest) ?_ d st1 ⟨[], (List.append_nil _).symm, .nil⟩
        rintro past next d1 st2 _ ⟨clusters, appended, recorded⟩
        refine ensures_mono _ _ ?_ _ (digitize_hit_recorded su gdata.fSource trigger_jitter d1 next any st2)
        rintro d2 _ ⟨more, appended', recorded'⟩
        refine ⟨clusters ++ more, by rw [appended', appended, List.append_assoc], ?_⟩
        rw [List.filter_append]
        exact List.rel_append recorded recorded'
      · rintro looped st2 ⟨clusters, appended, recorded⟩
        refine ensures_pure _ _ st2 ⟨clusters, appended, trigger_jitter, ?_⟩
        rw [Setup.recordedHits, hits]
        exact recorded

theorem recorded_append (su : Setup F) (sets : List (SimHitData F)) (clusters : List (GEMCluster F)) (recorded : Recorded su sets clusters)
    (gdata : SimHitData F) (more : List (GEMCluster F)) (added : SetRecorded su gdata more) :
    Recorded su (sets ++ [gdata]) (clusters ++ more) := by
  obtain ⟨groups, each, rfl⟩ := recorded
  refine ⟨groups ++ [more], List.rel_append each (.cons added .nil), ?_⟩
  rw [List.flatten_append, List.flatten_singleton]

end

section
variable {F : Type} [Arith F]

-- One row for each cluster of the signal.
def getAllMCHits (e : SimEvent F) : List (List F) :=
  (e.fGEMClust.filter (fun c => decide (c.fSource = 0))).map (fun c =>
    [c.fMCpos.x, c.fMCpos.y, c.fCharge, Arith.ofInt c.fPlane, Arith.ofInt c.fModule, c.fTime])

-- The row a hit of the signal is read back as.
def HitRow (su : Setup F) (trigger_jitter : F) (h : GEMHitData F) (row : List F) : Prop :=
  ∃ ch offset drift, su.accepts h = some ch ∧ su.par.fTriggerOffset[h.fPlane]? = some offset ∧
    let position := (ch.planeToSpec ((h.fXi.add h.fXo).smul 5e-1)).smul 1.0e-3
    row = [position.x, position.y, Arith.single h.fEdep, Arith.ofInt (toInt16 (su.manager.getPlaneID h.fGem)),
      Arith.ofInt (toInt16 (su.manager.getModuleID h.fGem)),
      Arith.single (Setup.timeZero (Arith.single h.fTime) offset drift trigger_jitter)]

theorem set_recorded_sources (su : Setup F) (gdata : SimHitData F) (clusters : List (GEMCluster F))
    (recorded : SetRecorded su gdata clusters) : ∀ c ∈ clusters, c.fSource = gdata.fSource := by
  obtain ⟨trigger_jitter, each⟩ := recorded
  intro c member
  obtain ⟨n, inside, rfl⟩ := List.mem_iff_getElem.mp member
  have matching := each.length_eq ▸ inside
  exact (each.get matching inside).source

theorem background_clusters_dropped (su : Setup F) (backgrounds : List (SimHitData F)) (groups : List (List (GEMCluster F)))
    (each : List.Forall₂ (SetRecorded su) backgrounds groups) (sources : ∀ gdata ∈ backgrounds, gdata.fSource ≠ 0) :
    groups.flatten.filter (fun c => decide (c.fSource = 0)) = [] := by
  induction each with
  | nil => rfl
  | @cons gdata group backgrounds groups recorded _ ih =>
      obtain ⟨background, others⟩ := List.forall_mem_cons.mp sources
      rw [List.flatten_cons, List.filter_append, ih others, List.append_nil, List.filter_eq_nil_iff]
      intro c member signal
      exact background ((set_recorded_sources su gdata group recorded c member).symm.trans (of_decide_eq_true signal))

-- The signal's hits come back in their order; background hits are left out.
theorem recorded_rows (su : Setup F) (signal : SimHitData F) (backgrounds : List (SimHitData F)) (source : signal.fSource = 0)
    (sources : ∀ gdata ∈ backgrounds, gdata.fSource ≠ 0) (e : SimEvent F) (recorded : Recorded su (signal :: backgrounds) e.fGEMClust) :
    ∃ trigger_jitter, List.Forall₂ (HitRow su trigger_jitter) (su.recordedHits signal) (getAllMCHits e) := by
  obtain ⟨groups, each, clusters⟩ := recorded
  cases each with
  | @cons _ group _ groups first rest =>
      have signals := set_recorded_sources su signal group first
      have kept : e.fGEMClust.filter (fun c => decide (c.fSource = 0)) = group := by
        rw [clusters, List.flatten_cons, List.filter_append, background_clusters_dropped su backgrounds groups rest sources,
          List.append_nil, List.filter_eq_self]
        exact fun c member => decide_eq_true ((signals c member).trans source)
      obtain ⟨trigger_jitter, hits⟩ := first
      refine ⟨trigger_jitter, ?_⟩
      rw [getAllMCHits, kept, List.forall₂_map_right_iff]
      refine hits.imp fun h c recorded => ?_
      obtain ⟨_, ch, fdh, size, offset, event_time, drift, accepted, found, timed, rfl⟩ := recorded
      rw [timed source]
      exact ⟨ch, offset, drift, accepted, found, rfl⟩

end

end Solgem
