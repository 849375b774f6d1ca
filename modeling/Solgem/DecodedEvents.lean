import Mathlib.LinearAlgebra.Matrix.NonsingularInverse
import Solgem.Lib.Appending
import Solgem.LoadEvent
import Solgem.RocLookup

set_option autoImplicit false

namespace Solgem

open Lib

section
variable {F S : Type}

-- The library keeps what it takes, and loses nothing it has.
structure CrateSlots.Keeps (lib : CrateSlots S) : Prop where
  cleared : ∀ a, lib.channel lib.cleared a = []
  stored : ∀ s d s', lib.loadData s d = (.SD_OK, s') →
    ∀ a, lib.channel s' a = lib.channel s a ++ if d.address = a then [(d.dat, d.raw)] else []
  passed : ∀ s d s', lib.loadData s d = (.SD_WARN, s') → ∀ a, lib.channel s' a = lib.channel s a

def CrateSlots.Warns (lib : CrateSlots S) (s : S) (d : SlotData) : Prop := (lib.loadData s d).1 = .SD_WARN

def CrateSlots.Refuses (lib : CrateSlots S) (s : S) (d : SlotData) : Prop := (lib.loadData s d).1 = .SD_ERR

theorem crate_slots_appending (lib : CrateSlots S) (keeps : lib.Keeps) :
    Appending lib.load SlotData.address (fun d => (d.dat, d.raw)) lib.channel lib.Warns := by
  constructor
  · intro s d s' loaded quiet k
    rw [CrateSlots.load] at loaded
    rw [CrateSlots.Warns] at quiet
    rcases found : lib.loadData s d with ⟨answer, next⟩
    rw [found] at loaded quiet
    cases answer with
    | SD_OK =>
        cases loaded
        exact keeps.stored s d s' found k
    | SD_WARN => exact absurd rfl quiet
    | SD_ERR => cases loaded
  · intro s d s' loaded warned k
    rw [CrateSlots.load] at loaded
    rw [CrateSlots.Warns] at warned
    rcases found : lib.loadData s d with ⟨answer, next⟩
    rw [found] at loaded warned
    cases warned
    cases loaded
    exact keeps.passed s d s' found k

theorem load_refused (lib : CrateSlots S) (s s' : S) (d : SlotData) (failed : lib.load s d = .error s') : lib.Refuses s d := by
  rw [CrateSlots.load] at failed
  split at failed
  · rename_i found
    exact congrArg Prod.fst found
  · cases failed

-- The calls of loadData the strips of an event ask for.
def eventLoads (su : DecoderSetup F S) (strips : List (DigiGEMStrip F)) : List SlotData :=
  strips.flatMap (fun s => (s.id.toROCD su.manager su.slots).elim [] (fun a => stripLoads a s))

-- Apart from the samples, the loop does what it does with a library that
-- takes all of them.
theorem add_strip_cases (su : DecoderSetup F S) (d : DecodedEvent F S) (s : DigiGEMStrip F) (i : Nat) :
    (∃ crateslot fStripMap, addStrip su d (s, i) = .ok { d with crateslot := crateslot, fStripMap := fStripMap } ∧
        loadStrip su.manager su.slots (fun _ _ => true) d.fStripMap (s, i) = .ok fStripMap ∧
        (eventLoads su [s]).foldlM su.lib.load d.crateslot = .ok crateslot) ∨
      (∃ crateslot, addStrip su d (s, i) = .error (.hedErr { d with crateslot := crateslot }) ∧
        (eventLoads su [s]).foldlM su.lib.load d.crateslot = .error crateslot) ∨
      addStrip su d (s, i) = .error .undefined ∧ ∃ e, loadStrip su.manager su.slots (fun _ _ => true) d.fStripMap (s, i) = .error e := by
  have loads : eventLoads su [s] = (s.id.toROCD su.manager su.slots).elim [] (fun a => stripLoads a s) := List.flatMap_singleton ..
  rw [addStrip, loadStrip, loads, StripID.toROCD, DigiGEMStrip.id]
  dsimp only
  cases stripToROCD su.manager su.slots s.fPlane s.fModule s.fProj s.fChan with
  | none => exact .inr (.inr ⟨rfl, _, rfl⟩)
  | some address =>
      have all : ((s.fADC.take s.fNsamp).all fun _ => true) = true := List.all_eq_true.mpr fun _ _ => rfl
      simp only [all, if_true, Option.elim_some]
      cases loaded : (stripLoads address s).foldlM su.lib.load d.crateslot with
      | error crateslot => exact .inr (.inl ⟨crateslot, rfl, rfl⟩)
      | ok crateslot =>
          cases insertNew d.fStripMap (makeROCKey su.manager su.slots address) i with
          | none => exact .inr (.inr ⟨rfl, _, rfl⟩)
          | some fStripMap => exact .inl ⟨crateslot, fStripMap, rfl, rfl, rfl⟩

theorem event_loads_cons (su : DecoderSetup F S) (s : DigiGEMStrip F) (strips : List (DigiGEMStrip F)) :
    eventLoads su (s :: strips) = eventLoads su [s] ++ eventLoads su strips := by
  rw [eventLoads, List.flatMap_cons, eventLoads, List.flatMap_singleton, eventLoads]

-- The strip loop, from a state in the middle of it.
theorem add_strips_cases (su : DecoderSetup F S) (strips : List (DigiGEMStrip F)) (start : Nat) (d : DecodedEvent F S) :
    match (strips.zipIdx start).foldlM (addStrip su) d with
    | .ok d' => ∃ crateslot fStripMap, d' = { d with crateslot := crateslot, fStripMap := fStripMap } ∧
        (strips.zipIdx start).foldlM (loadStrip su.manager su.slots (fun _ _ => true)) d.fStripMap = .ok fStripMap ∧
        (eventLoads su strips).foldlM su.lib.load d.crateslot = .ok crateslot
    | .error (.hedErr _) => ∃ crateslot, (eventLoads su strips).foldlM su.lib.load d.crateslot = .error crateslot
    | .error (.hedFatal _) => False
    | .error .undefined =>
        ∃ e, (strips.zipIdx start).foldlM (loadStrip su.manager su.slots (fun _ _ => true)) d.fStripMap = .error e := by
  induction strips generalizing start d with
  | nil => exact ⟨d.crateslot, d.fStripMap, rfl, rfl, rfl⟩
  | cons s strips ih =>
      rw [List.zipIdx_cons, event_loads_cons]
      rcases add_strip_cases su d s start with ⟨crateslot, fStripMap, step, old, loaded⟩ | ⟨crateslot, step, refused⟩ | ⟨step, e, old⟩
      · rw [foldlM_except_cons _ _ _ _ _ step, foldlM_except_cons _ _ _ _ _ old]
        have later := ih (start + 1) { d with crateslot := crateslot, fStripMap := fStripMap }
        split at later
        · obtain ⟨crateslot', fStripMap', same, followed, rest⟩ := later
          exact ⟨crateslot', fStripMap', same, followed, loads_append _ _ _ _ _ _ loaded rest⟩
        · obtain ⟨refused, failed⟩ := later
          exact ⟨refused, loads_append_error _ _ _ _ _ _ loaded failed⟩
        · exact later
        · exact later
      · rw [foldlM_except_stop _ _ _ _ _ step]
        exact ⟨crateslot, loads_append_stop _ _ _ _ _ refused⟩
      · rw [foldlM_except_stop _ _ _ _ _ step, foldlM_except_stop _ _ _ _ _ old]
        exact ⟨e, rfl⟩

theorem add_cluster_legal (nchamber itrack : Int) (s : PrimaryTrack F) (entry : GEMCluster F × Nat) :
    s.addCluster nchamber itrack entry = none ↔ entry.1.fPlane < 0 ∨ nchamber ≤ entry.1.fPlane := by
  rw [PrimaryTrack.addCluster]
  by_cases illegal : entry.1.fPlane < 0 ∨ nchamber ≤ entry.1.fPlane
  · exact iff_of_true (if_pos illegal) illegal
  · refine iff_of_false (fun given_up => ?_) illegal
    have continued := (if_neg illegal).symm.trans given_up
    split at continued <;> cases continued

theorem add_clusters_cases (nchamber itrack : Int) (fGEMClust : List (GEMCluster F)) :
    match addClusters nchamber itrack fGEMClust with
    | .ok s => loadClusters nchamber itrack fGEMClust = some s ∧ ∀ c ∈ fGEMClust, ¬ (c.fPlane < 0 ∨ nchamber ≤ c.fPlane)
    | .error _ => ∃ c ∈ fGEMClust, c.fPlane < 0 ∨ nchamber ≤ c.fPlane := by
  have loop : ∀ (cs : List (GEMCluster F)) (start : Nat) (s : PrimaryTrack F),
      match (cs.zipIdx start).foldlM (tryCluster nchamber itrack) s with
      | .ok s' => (cs.zipIdx start).foldlM (PrimaryTrack.addCluster nchamber itrack) s = some s' ∧
          ∀ c ∈ cs, ¬ (c.fPlane < 0 ∨ nchamber ≤ c.fPlane)
      | .error _ => ∃ c ∈ cs, c.fPlane < 0 ∨ nchamber ≤ c.fPlane := by
    intro cs
    induction cs with
    | nil => exact fun start s => ⟨rfl, fun _ none => nomatch none⟩
    | cons c cs ih =>
        intro start s
        rw [List.zipIdx_cons]
        cases step : s.addCluster nchamber itrack (c, start) with
        | none =>
            rw [foldlM_except_stop _ s s (c, start) _ (by rw [tryCluster, step])]
            exact ⟨c, List.mem_cons_self, (add_cluster_legal nchamber itrack s (c, start)).mp step⟩
        | some next =>
            have legal : ¬ (c.fPlane < 0 ∨ nchamber ≤ c.fPlane) := fun illegal => by
              rw [(add_cluster_legal nchamber itrack s (c, start)).mpr illegal] at step
              cases step
            have later := ih (start + 1) next
            rw [foldlM_except_cons _ s next (c, start) _ (by rw [tryCluster, step]), List.foldlM_cons, step]
            cases ran : (cs.zipIdx (start + 1)).foldlM (tryCluster nchamber itrack) next with
            | ok s' =>
                rw [ran] at later
                exact ⟨later.1, List.forall_mem_cons.mpr ⟨legal, later.2⟩⟩
            | error e =>
                rw [ran] at later
                obtain ⟨other, member, illegal⟩ := later
                exact ⟨other, List.mem_cons_of_mem _ member, illegal⟩
  exact loop fGEMClust 0 (PrimaryTrack.start nchamber)

-- The points of one event are all of its one track.
theorem track_points_one_track (itrack : Int) (cs : List (GEMCluster F)) :
    ∀ pt ∈ cs.flatMap (trackPoints itrack), pt.fMCTrack = itrack := by
  intro pt member
  obtain ⟨c, _, listed⟩ := List.mem_flatMap.mp member
  simp only [trackPoints, List.mem_cons, List.not_mem_nil, or_false] at listed
  rcases listed with rfl | rfl <;> rfl

end

section
variable {F S : Type} [Libm F]

theorem point_differences_total (mass : F) (itrack : Int) (pts : List (MCTrackPoint F)) (one_track : ∀ pt ∈ pts, pt.fMCTrack = itrack)
    (prev : Option (MCTrackPoint F)) (same : ∀ pt ∈ prev, pt.fMCTrack = itrack) :
    ∃ out, pointDifferences mass prev pts = some out := by
  induction pts generalizing prev with
  | nil => exact ⟨[], rfl⟩
  | cons pt pts ih =>
      obtain ⟨first, rest⟩ := List.forall_mem_cons.mp one_track
      obtain ⟨out, later⟩ := ih rest (some pt) (fun pt' found => (Option.mem_some.mp found) ▸ first)
      have asserted : prev.elim true (fun prev => decide (prev.fType = pt.fType → pt.fMCTrack = prev.fMCTrack)) = true := by
        cases prev with
        | none => rfl
        | some prev => exact decide_eq_true fun _ => first.trans (same prev rfl).symm
      refine ⟨pointDifference mass prev pt :: out, ?_⟩
      rw [pointDifferences, if_pos asserted, later]
      rfl

def caloChannels : List RocAddress := hcalChannels ++ focalChannels ++ secondChannels

def CaloLoads (su : DecoderSetup F S) (d d' : DecodedEvent F S) : Prop :=
  ∃ (loads : List SlotData) (crateslot : S), d' = { d with crateslot := crateslot } ∧ loads.foldlM su.lib.load d.crateslot = .ok crateslot ∧
    ∀ l ∈ loads, l.address ∈ caloChannels

omit [Libm F] in
theorem calo_loads_none (su : DecoderSetup F S) (d : DecodedEvent F S) : CaloLoads su d d :=
  ⟨[], d.crateslot, rfl, rfl, fun _ none => nomatch none⟩

omit [Libm F] in
theorem calo_loads_trans (su : DecoderSetup F S) (d mid d' : DecodedEvent F S) (first : CaloLoads su d mid)
    (later : CaloLoads su mid d') : CaloLoads su d d' := by
  obtain ⟨loads, crateslot, rfl, loaded, channels⟩ := first
  obtain ⟨loads', crateslot', rfl, loaded', channels'⟩ := later
  exact ⟨loads ++ loads', crateslot', rfl, loads_append _ _ _ _ _ _ loaded loaded',
    fun l member => (List.mem_append.mp member).elim (channels l) (channels' l)⟩

-- Why a calorimeter cluster may end the event.
def BadScint (simEvent : SimEvent F) : Prop := ∃ h ∈ simEvent.fScintClusters, h.fDetFlag ≠ 31 ∨ h.fEnergy ≤ 0.0

def SomeRefused (su : DecoderSetup F S) : Prop := ∃ s l, su.lib.Refuses s l

def CaloStops (su : DecoderSetup F S) (simEvent : SimEvent F) : LoadStop (DecodedEvent F S) → Prop
  | .hedErr _ => SomeRefused su ∨ BadScint simEvent
  | .hedFatal _ => False
  | .undefined => ∃ c ∈ simEvent.fECalClusters, c.fDetFlag = 12 ∧ su.fCaloThr ≤ c.fEnergy

theorem load_calo_settles (su : DecoderSetup F S) (simEvent : SimEvent F) (d0 d : DecodedEvent F S) (loads : List SlotData)
    (channels : ∀ l ∈ loads, l.address ∈ caloChannels) (before : CaloLoads su d0 d) :
    Settles (CaloStops su simEvent) (CaloLoads su d0) (loadCalo su d loads) := by
  rw [loadCalo]
  cases loaded : loads.foldlM su.lib.load d.crateslot with
  | error crateslot =>
      obtain ⟨_, l, _, mid, _, _, failed⟩ := refused_load _ _ _ _ loaded
      exact .inl ⟨mid, l, load_refused su.lib mid crateslot l failed⟩
  | ok crateslot => exact calo_loads_trans su d0 d _ before ⟨loads, crateslot, rfl, loaded, channels⟩

theorem calo_load_channels (su : DecoderSetup F S) (addresses : List RocAddress) (x y : F)
    (channels : ∀ a ∈ addresses, a ∈ caloChannels) : ∀ l ∈ caloLoads su addresses x y, l.address ∈ caloChannels := by
  intro l member
  obtain ⟨a, listed, rfl⟩ := List.mem_map.mp member
  exact channels a listed

theorem add_scints_bad (hs : List (ScintCluster F)) (points : List (FitPoint F)) (killed : addScints points hs = none) :
    ∃ h ∈ hs, h.fDetFlag ≠ 31 ∨ h.fEnergy ≤ 0.0 := by
  induction hs generalizing points with
  | nil => cases killed
  | cons h hs ih =>
      by_cases bad : h.fDetFlag ≠ 31 ∨ h.fEnergy ≤ 0.0
      · exact ⟨h, List.mem_cons_self, bad⟩
      · rw [addScints] at killed
        cases added : addScint points h with
        | none =>
            rw [addScint, if_neg bad] at added
            split at added <;> cases added
        | some next =>
            rw [added] at killed
            cases next with
            | none => cases killed
            | some next =>
                obtain ⟨h', member, bad'⟩ := ih next killed
                exact ⟨h', List.mem_cons_of_mem h member, bad'⟩

theorem electron_cluster_settles (su : DecoderSetup F S) (simEvent : SimEvent F) (vz : F) (c : ECalCluster F)
    (listed : c ∈ simEvent.fECalClusters) (accepted : c.fDetFlag = 12 ∧ su.fCaloThr ≤ c.fEnergy) (d0 : DecodedEvent F S)
    (acc : DecodedEvent F S × ElectronPoints F) (before : CaloLoads su d0 acc.1) :
    Settles (CaloStops su simEvent) (fun acc => CaloLoads su d0 acc.1) (electronCluster su simEvent.fScintClusters vz c acc) := by
  obtain ⟨d, v⟩ := acc
  have lost : CaloStops su simEvent (.undefined : LoadStop (DecodedEvent F S)) := ⟨c, listed, accepted⟩
  simp only [electronCluster]
  split
  · exact lost
  · split
    · rename_i killed
      exact .inr (add_scints_bad _ _ killed)
    · exact lost
    · split
      · exact lost
      · split
        · exact lost
        · refine settles_bind _ (CaloLoads su d0) _ _ _ (load_calo_settles su simEvent d0 d _ ?_ before) fun d1 first =>
            settles_bind _ (CaloLoads su d0) _ _ _ (load_calo_settles su simEvent d0 d1 _ ?_ first) fun d2 second => second
          · exact calo_load_channels su focalChannels _ _ (by decide)
          · exact calo_load_channels su secondChannels _ _ (by decide)

theorem calo_event_settles (su : DecoderSetup F S) (simEvent : SimEvent F) (trk : SimTrack F) (d : DecodedEvent F S) :
    Settles (CaloStops su simEvent) (CaloLoads su d) (caloEvent su simEvent trk d) := by
  refine settles_bind _ (fun acc : DecodedEvent F S × ElectronPoints F => CaloLoads su d acc.1) _ _ _
    (settles_foldlM _ _ _ _ (fun acc c listed before => ?_) _ (calo_loads_none su d)) fun acc loaded => loaded
  rw [caloCluster]
  split
  · exact settles_bind _ (CaloLoads su d) _ _ _ (load_calo_settles su simEvent d acc.1 _
      (calo_load_channels su hcalChannels _ _ (by decide)) before) fun d1 first => first
  · split
    · rename_i accepted
      exact electron_cluster_settles su simEvent _ c listed accepted d acc before
    · exact before

-- A sort of the track points: the planes in order, one projection after the
-- other.
structure Sorts (sort : List (MCTrackPoint F) → List (MCTrackPoint F)) : Prop where
  perm : ∀ pts, (sort pts).Perm pts
  ordered : ∀ pts, (sort pts).Pairwise (fun a b => a.fType < b.fType ∨ a.fType = b.fType ∧ a.fPlane ≤ b.fPlane)

-- What is known of a channel whose strip was loaded.
structure StripReadBack (su : DecoderSetup F S) (simEvent : SimEvent F) (d : DecodedEvent F S) (n : Nat) (record : DigiGEMStrip F)
    (a : RocAddress) : Prop where
  address : record.id.toROCD su.manager su.slots = some a
  index : stripFromROC su.manager su.slots d.fStripMap a = n
  truth : ∀ fNReadOut fSignalInfo, getSBSMCHitInfo su.manager su.slots d.fStripMap fNReadOut fSignalInfo simEvent a =
    stripMCHitInfo su.manager fNReadOut fSignalInfo simEvent.fGEMClust record
  samples : (∀ s l, ¬ su.lib.Warns s l) → su.fgDoCalo = false ∨ a ∉ caloChannels →
    su.lib.channel d.crateslot a = (record.fADC.take record.fNsamp).map (fun raw => (raw, raw))

structure DecodedTruth (su : DecoderSetup F S) (simEvent : SimEvent F) (trk : SimTrack F) (s : PrimaryTrack F)
    (d : DecodedEvent F S) : Prop where
  tallied : s.Tallied su.manager.fNChamber trk.fNumber simEvent.fGEMClust
  hits : d.fMCHits = simEvent.fGEMClust
  points : pointDifferences ((su.mass trk.fPID).getD 0.0) none (su.sort s.fMCPoints) = some d.fMCPoints
  nhits : d.fNHits = some (2 * (((simEvent.fGEMClust.filter isPrimary).map GEMCluster.fPlane).toFinset.card : Int))
  hitbits : d.fHitBits = some s.primary_hitbits
  back : backTracks su simEvent.fGEMClust s = some d.fBackTracks

structure Decoded (su : DecoderSetup F S) (simEvent : SimEvent F) (d : DecodedEvent F S) : Prop where
  number : d.event_num = simEvent.fEvtID
  weight : d.fWeight = simEvent.fWeight
  tracks : d.fMCTracks = simEvent.fMCTracks
  legal : ∀ c ∈ simEvent.fGEMClust, 0 ≤ c.fPlane ∧ c.fPlane < su.manager.fNChamber
  truth : ∃ trk s, simEvent.fMCTracks.head? = some trk ∧ DecodedTruth su simEvent trk s d
  strips : ∀ n record, simEvent.fGEMStrips[n]? = some record → ∃ a, StripReadBack su simEvent d n record a
  loaded : ∃ crateslot, (eventLoads su simEvent.fGEMStrips).foldlM su.lib.load su.lib.cleared = .ok crateslot

def StripRefused (su : DecoderSetup F S) (simEvent : SimEvent F) : Prop :=
  ∃ crateslot, (eventLoads su simEvent.fGEMStrips).foldlM su.lib.load su.lib.cleared = .error crateslot

-- Nothing but a sample the library refuses ends the strip loop.
def StripStops (su : DecoderSetup F S) (simEvent : SimEvent F) : LoadStop (DecodedEvent F S) → Prop
  | .hedErr _ => StripRefused su simEvent
  | .hedFatal _ => False
  | .undefined => False

-- Why DoLoadEvent ends early.
def EventStops (su : DecoderSetup F S) (simEvent : SimEvent F) : LoadStop (DecodedEvent F S) → Prop
  | .hedErr _ => StripRefused su simEvent ∨ tooSoft su simEvent ∨ su.fgDoCalo = true ∧ (SomeRefused su ∨ BadScint simEvent)
  | .hedFatal _ => ∃ c ∈ simEvent.fGEMClust, c.fPlane < 0 ∨ su.manager.fNChamber ≤ c.fPlane
  | .undefined => su.fgDoCalo = true ∧ ∃ c ∈ simEvent.fECalClusters, c.fDetFlag = 12 ∧ su.fCaloThr ≤ c.fEnergy

omit [Libm F] in
theorem strip_loads_at (a a' : RocAddress) (s : DigiGEMStrip F) :
    entriesAt SlotData.address a (stripLoads a' s) = if a' = a then stripLoads a' s else [] := by
  by_cases same : a' = a
  · rw [if_pos same]
    refine List.filter_eq_self.mpr fun l member => ?_
    obtain ⟨raw, _, rfl⟩ := List.mem_map.mp member
    exact decide_eq_true same
  · rw [if_neg same]
    refine List.filter_eq_nil_iff.mpr fun l member => ?_
    obtain ⟨raw, _, rfl⟩ := List.mem_map.mp member
    exact fun here => same (of_decide_eq_true here)

omit [Libm F] in
-- A channel is asked for by no strip but its own.
theorem event_loads_at (su : DecoderSetup F S) (unique : AddressesUnique su.manager su.slots) (strips : List (DigiGEMStrip F))
    (present : ∀ s ∈ strips, s.id.Exists su.manager) (distinct : (strips.map DigiGEMStrip.id).Nodup) (s : DigiGEMStrip F)
    (member : s ∈ strips) (a : RocAddress) (address : s.id.toROCD su.manager su.slots = some a) :
    entriesAt SlotData.address a (eventLoads su strips) = stripLoads a s := by
  rw [entriesAt, eventLoads, List.filter_flatMap]
  refine (flat_map_only _ s strips (List.Nodup.of_map _ distinct) member fun t other apart => ?_).trans ?_
  · cases located : t.id.toROCD su.manager su.slots with
    | none => rfl
    | some a' =>
        refine (strip_loads_at a a' t).trans (if_neg fun same => apart ?_)
        have ids := unique t.id s.id (present t other) (present s member) (by rw [located, address, same])
        exact List.inj_on_of_nodup_map distinct other member ids
  · rw [address]
    exact (strip_loads_at a a s).trans (if_pos rfl)

-- The event has its strips in the detector, each once.
structure StripsPlaced (su : DecoderSetup F S) (strips : List (DigiGEMStrip F)) : Prop where
  unique : AddressesUnique su.manager su.slots
  present : ∀ s ∈ strips, s.id.Exists su.manager
  distinct : (strips.map DigiGEMStrip.id).Nodup

structure StripsLoaded (su : DecoderSetup F S) (simEvent : SimEvent F) (d : DecodedEvent F S) : Prop where
  state : d = { DecodedEvent.cleared su simEvent with crateslot := d.crateslot, fStripMap := d.fStripMap }
  loaded : (eventLoads su simEvent.fGEMStrips).foldlM su.lib.load su.lib.cleared = .ok d.crateslot
  indexes : Indexes d.fStripMap (simEvent.fGEMStrips.map (fun s => rocKey su.manager s.id))

omit [Libm F] in
theorem strips_settle (su : DecoderSetup F S) (simEvent : SimEvent F) (placed : StripsPlaced su simEvent.fGEMStrips) :
    Settles (StripStops su simEvent) (StripsLoaded su simEvent)
      (simEvent.fGEMStrips.zipIdx.foldlM (addStrip su) (DecodedEvent.cleared su simEvent)) := by
  have keys := keys_distinct su.manager su.slots placed.unique simEvent.fGEMStrips placed.present placed.distinct
  have old := load_strips_outcome su.manager su.slots (fun _ _ => true) [] simEvent.fGEMStrips [] placed.present keys indexes_nil
  have new := add_strips_cases su simEvent.fGEMStrips 0 (DecodedEvent.cleared su simEvent)
  rcases old with ⟨_, _, _, _, _, _, _, refused⟩ | ⟨final, completed, indexes⟩
  · cases refused
  · cases ran : simEvent.fGEMStrips.zipIdx.foldlM (addStrip su) (DecodedEvent.cleared su simEvent) with
    | ok d =>
        rw [ran] at new
        obtain ⟨crateslot, fStripMap, same, followed, loaded⟩ := new
        have map : final = fStripMap := by
          have both := completed.symm.trans followed
          cases both
          rfl
        rw [same, ← map]
        exact ⟨rfl, loaded, indexes⟩
    | error stop =>
        rw [ran] at new
        cases stop with
        | hedErr d =>
            exact new
        | hedFatal d => exact new.elim
        | undefined =>
            obtain ⟨e, failed⟩ := new
            cases completed.symm.trans failed

-- Nothing after the strip loop changes the map, and only the calorimeters add
-- to the channels.
theorem strips_read_back (su : DecoderSetup F S) (simEvent : SimEvent F) (placed : StripsPlaced su simEvent.fGEMStrips)
    (keeps : su.lib.Keeps) (d d' : DecodedEvent F S) (loaded : StripsLoaded su simEvent d) (map : d'.fStripMap = d.fStripMap)
    (calo : List SlotData) (later : calo.foldlM su.lib.load d.crateslot = .ok d'.crateslot)
    (channels : ∀ l ∈ calo, l.address ∈ caloChannels) (off : su.fgDoCalo = false → calo = []) (n : Nat) (record : DigiGEMStrip F)
    (here : simEvent.fGEMStrips[n]? = some record) : ∃ a, StripReadBack su simEvent d' n record a := by
  have member := List.mem_of_getElem? here
  obtain ⟨a, address, key, _⟩ := strip_key su.manager su.slots record.id (placed.present record member)
  have entry : d'.fStripMap.lookup (makeROCKey su.manager su.slots a) = some n := by
    rw [key, map, loaded.indexes, List.getElem?_map, here, Option.map_some]
  have index : stripFromROC su.manager su.slots d'.fStripMap a = n := by rw [stripFromROC, entry]
  refine ⟨a, address, index, fun fNReadOut fSignalInfo => ?_, fun quiet free => ?_⟩
  · rw [getSBSMCHitInfo, index, if_pos (by omega), Int.toNat_natCast, here, Option.bind_some]
  · have appending := crate_slots_appending su.lib keeps
    obtain ⟨kept, _, read, whole⟩ := loads_read_back appending _ _ _ (loads_append _ _ _ _ _ _ loaded.loaded later) a
    have none_else : entriesAt SlotData.address a calo = [] := by
      refine List.filter_eq_nil_iff.mpr fun l listed same => ?_
      cases free with
      | inl disabled =>
          rw [off disabled] at listed
          cases listed
      | inr apart => exact apart (of_decide_eq_true same ▸ channels l listed)
    have all : kept = stripLoads a record := by
      have split : entriesAt SlotData.address a (eventLoads su simEvent.fGEMStrips ++ calo) =
          entriesAt SlotData.address a (eventLoads su simEvent.fGEMStrips) ++ entriesAt SlotData.address a calo := List.filter_append ..
      rw [whole fun s l _ => quiet s l, split, none_else, List.append_nil]
      exact event_loads_at su placed.unique _ placed.present placed.distinct record member a address
    rw [read, keeps.cleared, all, List.nil_append, stripLoads, List.map_map]
    rfl

theorem back_tracks_found (su : DecoderSetup F S) (cs : List (GEMCluster F)) (itrack : Int) (s : PrimaryTrack F)
    (tallied : s.Tallied su.manager.fNChamber itrack cs) : ∃ fBackTracks, backTracks su cs s = some fBackTracks := by
  rw [backTracks]
  rcases tallied.best with ⟨_, index, _⟩ | ⟨i, c, first, index, _⟩
  · rw [if_neg (by omega)]
    exact ⟨[], rfl⟩
  · rw [if_pos (by omega), index, Int.toNat_natCast, first.here]
    exact ⟨_, rfl⟩

theorem finish_event_settles (su : DecoderSetup F S) (simEvent : SimEvent F) (placed : StripsPlaced su simEvent.fGEMStrips)
    (keeps : su.lib.Keeps) (sorts : Sorts su.sort) (d : DecodedEvent F S) (loaded : StripsLoaded su simEvent d) (trk : SimTrack F)
    (tracked : simEvent.fMCTracks.head? = some trk)
    (legal : ∀ c ∈ simEvent.fGEMClust, 0 ≤ c.fPlane ∧ c.fPlane < su.manager.fNChamber) (s : PrimaryTrack F)
    (tallied : s.Tallied su.manager.fNChamber trk.fNumber simEvent.fGEMClust) :
    Settles (EventStops su simEvent) (Decoded su simEvent)
      (finishEvent su simEvent trk s { d with fMCTracks := simEvent.fMCTracks }) := by
  have one_track : ∀ pt ∈ su.sort s.fMCPoints, pt.fMCTrack = trk.fNumber := by
    intro pt member
    have listed := (sorts.perm s.fMCPoints).mem_iff.mp member
    rw [tallied.points] at listed
    exact track_points_one_track trk.fNumber _ pt listed
  obtain ⟨fMCPoints, differences⟩ := point_differences_total ((su.mass trk.fPID).getD 0.0) trk.fNumber _ one_track none
    (fun _ none => nomatch none)
  obtain ⟨fBackTracks, back⟩ := back_tracks_found su simEvent.fGEMClust trk.fNumber s tallied
  have count : 2 * numberOfSetBits s.primary_hitbits =
      2 * (((simEvent.fGEMClust.filter isPrimary).map GEMCluster.fPlane).toFinset.card : Int) := by
    rw [marks_planes_count _ _ _ tallied.hitbits fun c member => (legal c member).1]
  rw [finishEvent, differences, back]
  have number := congrArg DecodedEvent.event_num loaded.state
  have weight := congrArg DecodedEvent.fWeight loaded.state
  have decoded (calo : List SlotData) (crateslot : S) (later : calo.foldlM su.lib.load d.crateslot = .ok crateslot)
      (channels : ∀ l ∈ calo, l.address ∈ caloChannels) (off : su.fgDoCalo = false → calo = []) :
      Decoded su simEvent { d with
        fMCTracks := simEvent.fMCTracks
        fMCHits := s.fMCHits
        fMCPoints := fMCPoints
        fNHits := some (2 * numberOfSetBits s.primary_hitbits)
        fHitBits := some s.primary_hitbits
        fBackTracks := fBackTracks
        crateslot := crateslot } :=
    ⟨number, weight, rfl, legal, ⟨trk, s, tracked, tallied, tallied.hits, differences, congrArg some count, rfl, back⟩,
      strips_read_back su simEvent placed keeps d _ loaded rfl calo later channels off, d.crateslot, loaded.loaded⟩
  by_cases emulated : 0 ≤ s.best_primary ∧ su.fgDoCalo = true
  · simp only [if_pos emulated]
    have branch := calo_event_settles su simEvent trk { d with
      fMCTracks := simEvent.fMCTracks
      fMCHits := s.fMCHits
      fMCPoints := fMCPoints
      fNHits := some (2 * numberOfSetBits s.primary_hitbits)
      fHitBits := some s.primary_hitbits
      fBackTracks := fBackTracks }
    revert branch
    generalize caloEvent su simEvent trk _ = outcome
    intro branch
    cases outcome with
    | ok d' =>
        obtain ⟨calo, crateslot, rfl, later, channels⟩ := branch
        exact decoded calo crateslot later channels (fun off => by rw [emulated.2] at off; cases off)
    | error stop =>
        cases stop with
        | hedErr d' => exact .inr (.inr ⟨emulated.2, branch⟩)
        | hedFatal d' => exact branch.elim
        | undefined => exact ⟨emulated.2, branch⟩
  · simp only [if_neg emulated]
    exact decoded [] d.crateslot rfl (fun _ none => nomatch none) (fun _ => rfl)

-- DoLoadEvent comes to an end, and either decodes the event whole or stops
-- for a reason the event or the library gives.
theorem event_settles (su : DecoderSetup F S) (simEvent : SimEvent F) (placed : StripsPlaced su simEvent.fGEMStrips)
    (keeps : su.lib.Keeps) (sorts : Sorts su.sort) (fits : su.manager.fNChamber ≤ 32) (tracked : simEvent.fMCTracks ≠ []) :
    Settles (EventStops su simEvent) (Decoded su simEvent) (doLoadEvent su simEvent) := by
  have stripped : Settles (EventStops su simEvent) (StripsLoaded su simEvent) _ :=
    settles_weaken _ _ _ _ (strips_settle su simEvent placed) fun stop why => by
      cases stop with
      | hedErr d => exact .inl why
      | hedFatal d => exact why.elim
      | undefined => exact why.elim
  refine settles_bind _ _ _ _ _ stripped fun d loaded => ?_
  by_cases soft : tooSoft su simEvent
  · rw [if_pos soft]
    exact .inr (.inl soft)
  · rw [if_neg soft]
    cases tracks : simEvent.fMCTracks with
    | nil => exact absurd tracks tracked
    | cons trk rest =>
        have clusters := add_clusters_cases su.manager.fNChamber trk.fNumber simEvent.fGEMClust
        cases ran : addClusters su.manager.fNChamber trk.fNumber simEvent.fGEMClust with
        | error s =>
            rw [ran] at clusters
            simp only [ran]
            exact clusters
        | ok s =>
            rw [ran] at clusters
            simp only [ran]
            obtain ⟨clusters, apart⟩ := clusters
            have legal : ∀ c ∈ simEvent.fGEMClust, 0 ≤ c.fPlane ∧ c.fPlane < su.manager.fNChamber := by
              intro c member
              have inside := apart c member
              omega
            obtain ⟨s', again, tallied⟩ := load_clusters_tallied su.manager.fNChamber trk.fNumber fits simEvent.fGEMClust legal
            have same : s = s' := Option.some.inj (clusters.symm.trans again)
            rw [← tracks]
            exact finish_event_settles su simEvent placed keeps sorts d loaded trk (by rw [tracks]; rfl) legal s (same ▸ tallied)

theorem load_event_tracked (su : DecoderSetup F S) (simEvent : SimEvent F) (d : DecodedEvent F S)
    (decoded : doLoadEvent su simEvent = .ok d) : simEvent.fMCTracks ≠ [] := by
  intro none_left
  rw [doLoadEvent, none_left] at decoded
  cases ran : simEvent.fGEMStrips.zipIdx.foldlM (addStrip su) (DecodedEvent.cleared su simEvent) with
  | error stop =>
      rw [ran] at decoded
      cases decoded
  | ok stripped =>
      rw [ran] at decoded
      replace decoded : (if tooSoft su simEvent then _ else _) = Except.ok d := decoded
      split at decoded
      · cases decoded
      · cases decoded

-- An event is decoded along one path: the strips are loaded, no cluster is in
-- an illegal plane, and the rest is finished.
theorem load_event_ok (su : DecoderSetup F S) (fits : su.manager.fNChamber ≤ 32) (simEvent : SimEvent F) (d : DecodedEvent F S)
    (decoded : doLoadEvent su simEvent = .ok d) :
    ∃ stripped trk s, simEvent.fGEMStrips.zipIdx.foldlM (addStrip su) (DecodedEvent.cleared su simEvent) = .ok stripped ∧
      simEvent.fMCTracks.head? = some trk ∧ s.Tallied su.manager.fNChamber trk.fNumber simEvent.fGEMClust ∧
      finishEvent su simEvent trk s { stripped with fMCTracks := simEvent.fMCTracks } = .ok d := by
  rw [doLoadEvent] at decoded
  cases ran : simEvent.fGEMStrips.zipIdx.foldlM (addStrip su) (DecodedEvent.cleared su simEvent) with
  | error stop =>
      rw [ran] at decoded
      cases decoded
  | ok stripped =>
      rw [ran] at decoded
      replace decoded : (if tooSoft su simEvent then _ else _) = Except.ok d := decoded
      split at decoded
      · cases decoded
      · split at decoded
        · cases decoded
        · rename_i trk rest tracks
          split at decoded
          · cases decoded
          · rename_i s clusters
            have cases_of := add_clusters_cases su.manager.fNChamber trk.fNumber simEvent.fGEMClust
            rw [clusters] at cases_of
            obtain ⟨loaded, apart⟩ := cases_of
            obtain ⟨s', again, tallied⟩ := load_clusters_tallied su.manager.fNChamber trk.fNumber fits simEvent.fGEMClust
              (fun c member => by have inside := apart c member; omega)
            have same : s = s' := Option.some.inj (loaded.symm.trans again)
            exact ⟨stripped, trk, s, rfl, by rw [tracks]; rfl, same ▸ tallied, decoded⟩

-- What is left of an event before the calorimeters.
def DecodedEvent.tracked (d : DecodedEvent F S) (s : PrimaryTrack F) (fMCPoints : List (TrackPoint F))
    (fBackTracks : List (SimBackTrack F)) :
    DecodedEvent F S :=
  { d with
    fMCHits := s.fMCHits
    fMCPoints := fMCPoints
    fNHits := some (2 * numberOfSetBits s.primary_hitbits)
    fHitBits := some s.primary_hitbits
    fBackTracks := fBackTracks }

theorem finish_event_ok (su : DecoderSetup F S) (simEvent : SimEvent F) (trk : SimTrack F) (s : PrimaryTrack F) (d d' : DecodedEvent F S)
    (finished : finishEvent su simEvent trk s d = .ok d') :
    ∃ fMCPoints fBackTracks, pointDifferences ((su.mass trk.fPID).getD 0.0) none (su.sort s.fMCPoints) = some fMCPoints ∧
      backTracks su simEvent.fGEMClust s = some fBackTracks ∧
      (if 0 ≤ s.best_primary ∧ su.fgDoCalo = true then caloEvent su simEvent trk (d.tracked s fMCPoints fBackTracks)
        else .ok (d.tracked s fMCPoints fBackTracks)) = .ok d' := by
  rw [finishEvent] at finished
  split at finished
  · rename_i fMCPoints fBackTracks differences back
    exact ⟨fMCPoints, fBackTracks, differences, back, finished⟩
  · cases finished

-- Without the calorimeters the library and the planes of the clusters decide
-- what DoLoadEvent returns.
theorem load_event_outcomes (su : DecoderSetup F S) (simEvent : SimEvent F) (placed : StripsPlaced su simEvent.fGEMStrips)
    (keeps : su.lib.Keeps) (sorts : Sorts su.sort) (fits : su.manager.fNChamber ≤ 32) (tracked : simEvent.fMCTracks ≠ [])
    (off : su.fgDoCalo = false) :
    (StripRefused su simEvent ∧ ∃ d, doLoadEvent su simEvent = .error (.hedErr d)) ∨
      ¬ StripRefused su simEvent ∧
        (((∃ c ∈ simEvent.fGEMClust, c.fPlane < 0 ∨ su.manager.fNChamber ≤ c.fPlane) ∧
            ∃ d, doLoadEvent su simEvent = .error (.hedFatal d)) ∨
          ∃ d, doLoadEvent su simEvent = .ok d ∧ Decoded su simEvent d) := by
  have outcome := event_settles su simEvent placed keeps sorts fits tracked
  have disabled : su.fgDoCalo ≠ true := by
    rw [off]
    exact Bool.false_ne_true
  by_cases refused : StripRefused su simEvent
  · refine .inl ⟨refused, ?_⟩
    obtain ⟨crateslot, failed⟩ := refused
    have strips := strips_settle su simEvent placed
    rw [doLoadEvent]
    cases ran : simEvent.fGEMStrips.zipIdx.foldlM (addStrip su) (DecodedEvent.cleared su simEvent) with
    | ok d =>
        rw [ran] at strips
        cases failed.symm.trans strips.loaded
    | error stop =>
        rw [ran] at strips
        cases stop with
        | hedErr d => exact ⟨d, rfl⟩
        | hedFatal d => exact strips.elim
        | undefined => exact strips.elim
  · refine .inr ⟨refused, ?_⟩
    cases ran : doLoadEvent su simEvent with
    | ok d =>
        rw [ran] at outcome
        exact .inr ⟨d, rfl, outcome⟩
    | error stop =>
        rw [ran] at outcome
        cases stop with
        | hedErr d =>
            rcases outcome with refusal | soft | calo
            · exact absurd refusal refused
            · exact absurd soft.1 disabled
            · exact absurd calo.1 disabled
        | hedFatal d => exact .inl ⟨outcome, d, rfl⟩
        | undefined => exact absurd outcome.1 disabled

end

section

-- A library that keeps all it is given.
def storedSlots : CrateSlots (List SlotData) where
  cleared := []
  loadData s d := (.SD_OK, s ++ [d])
  channel s a := (s.filter (fun d => decide (d.address = a))).map (fun d => (d.dat, d.raw))

theorem stored_slots_keep : storedSlots.Keeps where
  cleared := fun _ => rfl
  stored := by
    intro s d s' taken a
    cases taken
    by_cases here : d.address = a
    · simp [storedSlots, here]
    · simp [storedSlots, here]
  passed := fun s d s' passed => nomatch passed

theorem stored_slots_take (ds s : List SlotData) : ds.foldlM storedSlots.load s = .ok (s ++ ds) := by
  induction ds generalizing s with
  | nil => exact congrArg Except.ok (List.append_nil s).symm
  | cons d ds ih =>
      have taken : storedSlots.load s d = .ok (s ++ [d]) := rfl
      rw [foldlM_except_cons _ _ _ _ _ taken, ih, List.append_assoc, List.singleton_append]

def pointOrder (a b : MCTrackPoint ℝ) : Bool := decide (a.fType < b.fType ∨ a.fType = b.fType ∧ a.fPlane ≤ b.fPlane)

theorem point_sort_sorts : Sorts (fun pts => pts.mergeSort pointOrder) where
  perm := fun pts => List.mergeSort_perm pts pointOrder
  ordered := by
    intro pts
    have sorted : (pts.mergeSort pointOrder).Pairwise (fun a b => pointOrder a b = true) := List.pairwise_mergeSort
      (fun a b c first later => by simp only [pointOrder, decide_eq_true_eq] at first later ⊢; omega)
      (fun a b => by simp only [pointOrder, Bool.or_eq_true, decide_eq_true_eq]; omega) pts
    exact sorted.imp fun ordered => of_decide_eq_true ordered

noncomputable def plainSetup (m : DBManager ℝ) : DecoderSetup ℝ (List SlotData) where
  manager := m
  slots := ⟨30, by decide⟩
  lib := storedSlots
  fgDoCalo := false
  fCaloThr := 0
  fgZ0 := 0
  optics := none
  shower := ⟨⟨0, 0, 0, []⟩, ⟨0, 0, 0, []⟩, 0, 0, 0, 0, 0, 0, [], []⟩
  mass := fun _ => none
  sort := fun pts => pts.mergeSort pointOrder
  log := Real.log
  invert := fun A i j => (Matrix.of A)⁻¹ i j
  bits := fun _ => 0

noncomputable def twoPlaneEvent : SimEvent ℝ :=
  { (SimEvent.new : SimEvent ℝ) with
    fMCTracks := [⟨1, 11, ⟨0, 0, 0⟩, ⟨0, 0, 1⟩, ⟨0, 0, 0⟩, ⟨0, 0, 1⟩⟩]
    fGEMClust := [{ contributor 1 0 5.0 2.0 with fPlane := 1 }, contributor 2 0 6.0 3.0]
    fGEMStrips := [plainStrip 0 2 1 7, plainStrip 1 1 0 127] }

theorem two_plane_hits (c : GEMCluster ℝ) (member : c ∈ twoPlaneEvent.fGEMClust) : c.fPlane = 1 ∨ c.fPlane = 0 := by
  rcases List.mem_cons.mp member with rfl | rest
  · exact .inl rfl
  · exact .inr (congrArg GEMCluster.fPlane (List.mem_singleton.mp rest))

theorem two_plane_placed (m : DBManager ℝ) (loaded : DBManager.loadGeneralInfo ⟨5, 2, [3, 2], 128, 1⟩ = some m) :
    StripsPlaced (plainSetup m) twoPlaneEvent.fGEMStrips := by
  obtain ⟨counts, channels, _⟩ := DBManager.load_general_info_fields _ m loaded
  have apart : SlotRangesApart m.fNModule := by
    rw [counts]
    refine uniform_ranges_apart [3, 2] 3 fun p bound => ?_
    have zero : p = 0 := by
      have below : p + 1 < 2 := bound
      omega
    rw [zero]
    rfl
  refine ⟨addresses_unique_of_apart m ⟨30, by decide⟩ apart, fun s member => ?_, by decide⟩
  rcases List.mem_cons.mp member with rfl | rest
  · refine ⟨by decide, ⟨3, ?_, by decide, by decide⟩, .inr rfl, by decide, ?_⟩
    · exact (congrArg (·[0]?) counts).trans rfl
    · exact channels.symm ▸ (by decide : (7 : Int) < 128)
  · rw [List.mem_singleton.mp rest]
    refine ⟨by decide, ⟨2, ?_, by decide, by decide⟩, .inl rfl, by decide, ?_⟩
    · exact (congrArg (·[1]?) counts).trans rfl
    · exact channels.symm ▸ (by decide : (127 : Int) < 128)

theorem load_event_outcomes_two_planes :
    ∃ m : DBManager ℝ, DBManager.loadGeneralInfo ⟨5, 2, [3, 2], 128, 1⟩ = some m ∧
      ∃ d, doLoadEvent (plainSetup m) twoPlaneEvent = .ok d ∧ Decoded (plainSetup m) twoPlaneEvent d := by
  obtain ⟨m, loaded⟩ : ∃ m : DBManager ℝ, DBManager.loadGeneralInfo ⟨5, 2, [3, 2], 128, 1⟩ = some m := ⟨_, rfl⟩
  obtain ⟨_, _, chambers⟩ := DBManager.load_general_info_fields _ m loaded
  refine ⟨m, loaded, ?_⟩
  rcases load_event_outcomes (plainSetup m) twoPlaneEvent (two_plane_placed m loaded) stored_slots_keep point_sort_sorts
    (chambers.trans_le (by decide)) (List.cons_ne_nil _ _) rfl with refused | ⟨_, fatal | decoded⟩
  · obtain ⟨⟨crateslot, failed⟩, _⟩ := refused
    cases failed.symm.trans (stored_slots_take _ _)
  · obtain ⟨⟨c, member, illegal⟩, _⟩ := fatal
    have five : (plainSetup m).manager.fNChamber = 5 := chambers
    have plane := two_plane_hits c member
    omega
  · exact decoded

end

end Solgem
