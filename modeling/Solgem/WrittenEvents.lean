import Solgem.DecodedEvents
import Solgem.GEMLookups
import Solgem.PassEvents

set_option autoImplicit false

namespace Solgem

open Lib Digitizer

section
variable {F : Type} [Arith F] {rng : Rng F} {fails : Fault → Prop}

-- Plane and module numbers as the records of a chamber carry them.
def Setup.InChamber (su : Setup F) (fPlane fModule : Int) : Prop :=
  ∃ ich, ich < su.fNChambers ∧ fPlane = toInt16 (su.manager.getPlaneID ich) ∧ fModule = toInt16 (su.manager.getModuleID ich)

def Setup.stripID (su : Setup F) (strip : Nat × Fin 2 × Nat) : StripID :=
  ⟨toInt16 (su.manager.getPlaneID strip.1), toInt16 (su.manager.getModuleID strip.1), strip.2.1.val, strip.2.2⟩

-- All strips of the chambers, in the order of SetTreeStrips.
def Setup.stripIDs (su : Setup F) : List StripID := (strips su su.freshPlane).map su.stripID

-- Every cluster is of one of the chambers, and the strip list is empty or
-- holds every strip of them once.
structure EventPlaced (su : Setup F) (e : SimEvent F) : Prop where
  clusters : ∀ c ∈ e.fGEMClust, su.InChamber c.fPlane c.fModule
  strips : e.fGEMStrips = [] ∨ e.fGEMStrips.map DigiGEMStrip.id = su.stripIDs

theorem strips_of_shape (su : Setup F) (d : Digitizer F) (steady : Steady su d) : strips su d.fDP = strips su su.freshPlane := by
  simp only [strips, (steady.shape _ _).strips]

theorem shows_strip_ids (su : Setup F) (d : Digitizer F) (steady : Steady su d) (records : List (DigiGEMStrip F))
    (shows : Shows rng su d.fDP records) : records.map DigiGEMStrip.id = su.stripIDs := by
  rw [Shows, strips_of_shape su d steady] at shows
  have same : List.Forall₂ (fun strip record => su.stripID strip = DigiGEMStrip.id record) (strips su su.freshPlane) records := by
    refine shows.imp fun strip record readout => ?_
    rw [DigiGEMStrip.id, readout.plane, readout.module, readout.proj, readout.chan, Setup.stripID]
  rw [Setup.stripIDs]
  exact (List.forall₂_eq_eq_eq ▸ (List.forall₂_map_left_iff.mpr (List.forall₂_map_right_iff.mpr same))).symm

theorem record_hit_placed (su : Setup F) (e : SimEvent F) (placed : EventPlaced su e) (c : GEMCluster F)
    (chamber : su.InChamber c.fPlane c.fModule) : EventPlaced su (e.recordHit c) := by
  refine ⟨fun c' member => ?_, placed.strips⟩
  cases List.mem_append.mp member with
  | inl earlier => exact placed.clusters c' earlier
  | inr last => exact List.mem_singleton.mp last ▸ chamber

theorem tree_hit_chamber (su : Setup F) (fSource : Int) (h : GEMHitData F) (ch : GEMChamber F) (found : su.spec[h.fGem]? = some ch)
    (fdh : Option (Fin 2 → GEMHit F)) (size : Nat) (t0 : F) :
    su.InChamber (su.treeHit fSource h ch fdh size t0).fPlane (su.treeHit fSource h ch fdh size t0).fModule :=
  ⟨h.fGem, (List.getElem?_eq_some_iff.mp found).1, rfl, rfl⟩

theorem event_placed_clear (su : Setup F) (e : SimEvent F) : EventPlaced su e.clear := ⟨(fun _ none => nomatch none), .inl rfl⟩

theorem additive_digitize_placed (su : Setup F) (d : Digitizer F) (gdata : SimHitData F) (placed : EventPlaced su d.fEvent)
    (any : ∀ fault, fails fault) (st : rng.State) :
    Ensures fails (fun d' _ => EventPlaced su d'.fEvent) ((d.additiveDigitize su gdata : Draw rng _) st) := by
  refine ensures_mono _ _ ?_ _ (additive_digitize_ensures su d gdata st (fun _ d' => EventPlaced su d'.fEvent) placed ?_)
  · intro d' _ outcome
    cases outcome with
    | inl unchanged => exact unchanged.2 ▸ placed
    | inr looped =>
        obtain ⟨_, looped, kept, cleared⟩ := looped
        rw [cleared]
        exact kept
  · intro trigger_jitter _ h d1 st1 _ kept
    refine digitize_hit_ensures su gdata.fSource trigger_jitter d1 h st1 _ (fun _ => kept) (fun ch accepted => ?_)
    refine digitize_accepted_ensures su gdata.fSource trigger_jitter d1 h ch st1 _ (any _) (fun _ _ _ _ => any _) ?_
    intro ion _ time_zero fdh st' _ _
    refine ensures_mono _ _ ?_ _ (cumulate_hit_frame su _ h _ any st')
    rintro d' _ ⟨fDP, released, rfl⟩
    rw [set_tree_hit_state]
    exact record_hit_placed su _ kept _ (tree_hit_chamber su _ h ch (accepts_chamber su h ch accepted) _ _ _)

theorem record_tree_hits_placed (su : Setup F) (fSource : Int) (hits : List (GEMHitData F)) (d : Digitizer F)
    (placed : EventPlaced su d.fEvent) : EventPlaced su (hits.foldl (recordTreeHit su fSource) d).fEvent := by
  refine foldl_invariant _ (fun _ acc => EventPlaced su acc.fEvent) [] hits ?_ d placed
  intro _ h acc _ kept
  rw [recordTreeHit]
  cases found : su.spec[h.fGem]? with
  | none => exact kept
  | some ch =>
      simp only [set_tree_hit_state]
      exact record_hit_placed su _ kept _ (tree_hit_chamber su fSource h ch found _ _ _)

theorem set_tree_strips_placed (su : Setup F) (d : Digitizer F) (steady : Steady su d) (placed : EventPlaced su d.fEvent)
    (any : ∀ fault, fails fault) (st : rng.State) :
    Ensures fails (fun d' _ => EventPlaced su d'.fEvent) ((d.setTreeStrips su : Draw rng _) st) := by
  refine ensures_mono _ _ ?_ _ (set_tree_strips_shows su d (fun _ => any _) st)
  rintro d' _ ⟨records, shows, rfl⟩
  exact ⟨placed.clusters, .inr (shows_strip_ids su d steady records shows)⟩

theorem call_keeps_placed (su : Setup F) (d : Digitizer F) (steady : Steady su d) (placed : EventPlaced su d.fEvent) (c : Call F)
    (any : ∀ fault, fails fault) (st : rng.State) :
    Ensures fails (fun d' _ => EventPlaced su d'.fEvent) ((c.apply su d : Draw rng _) st) := by
  cases c with
  | digitize gdata => exact additive_digitize_placed su d.clearAll gdata (event_placed_clear su d.fEvent) any st
  | additiveDigitize gdata => exact additive_digitize_placed su d gdata placed any st
  | noDigitize gdata =>
      obtain ⟨planes, avalanche⟩ := record_tree_hits_frame su gdata.fSource gdata.fHitData { d with fEvent := d.fEvent.clear }
      refine set_tree_strips_placed su _ ⟨avalanche.trans steady.idle, ?_, ?_⟩
        (record_tree_hits_placed su _ _ _ (event_placed_clear su d.fEvent)) any st
      · rw [planes]
        exact steady.shape
      · rw [planes]
        exact steady.quiet
  | setTreeEvent tsgd f evnum =>
      refine ensures_mono _ _ ?_ _ (set_tree_event_ensures su d tsgd f evnum st)
      rintro d' _ ⟨e, ecal, scint, rfl, event⟩
      refine ⟨fun c member => ?_, .inl event.strips⟩
      rw [show e.fGEMClust = [] from event.clusters] at member
      cases member
  | setTreeStrips => exact set_tree_strips_placed su d steady placed any st
  | fillTree =>
      exact fill_tree_ensures su d (fun _ => any _) st _ (fun _ => placed)
        (fun _ records shows => ⟨placed.clusters, .inr (shows_strip_ids su d steady records shows)⟩)

-- In every reachable state the event is placed.
theorem reachable_placed (su : Setup F) (d : Digitizer F) (reachable : Reachable rng su d) : EventPlaced su d.fEvent := by
  induction reachable with
  | init ion fOTree => exact ⟨(fun _ none => nomatch none), .inl rfl⟩
  | call d d' c st st' before ran ih =>
      exact ensures_ok _ d' st' _ (call_keeps_placed su d (reachable_steady su d before) ih c (fun _ => trivial) st) ran

end

section
variable {F : Type}

theorem strips_nodup (su : Setup F) (fDP : Nat → Fin 2 → DigitizedPlane F) : (strips su fDP).Nodup := by
  refine List.nodup_flatMap.mpr ⟨fun ich _ => List.nodup_flatMap.mpr ⟨fun ip _ => ?_, ?_⟩, ?_⟩
  · exact List.nodup_range.map fun a b same => congrArg (fun strip => strip.2.2) same
  · refine (List.nodup_finRange 2).imp fun {a b} apart strip first second => apart ?_
    obtain ⟨_, _, rfl⟩ := List.mem_map.mp first
    obtain ⟨_, _, same⟩ := List.mem_map.mp second
    exact (congrArg (fun strip => strip.2.1) same).symm
  · refine List.nodup_range.imp fun {a b} apart strip first second => apart ?_
    obtain ⟨_, _, first⟩ := List.mem_flatMap.mp first
    obtain ⟨_, _, second⟩ := List.mem_flatMap.mp second
    obtain ⟨_, _, rfl⟩ := List.mem_map.mp first
    obtain ⟨_, _, same⟩ := List.mem_map.mp second
    exact (congrArg Prod.fst same).symm

-- The database of the digitization: LoadGeneralInfo has read it, LoadGeoInfo
-- may have added the geometry, and the chambers are among those it counts.
structure Configured (info : GeneralInfo) (m : DBManager F) (su : Setup F) : Prop where
  loaded : DBManager.loadGeneralInfo info = some m
  manager : ∃ geo, su.manager = { m with fPMGeoInfo := geo }
  chambers : su.fNChambers ≤ info.modulesTotal
  channels : ∀ ch ∈ su.spec, ∀ ip, (toUInt16 (ch.fPlanes ip).fNStrips : Int) ≤ info.chan_per_slot
  uniform : ∃ n, ∀ p, p + 1 < info.nmodule.length → info.nmodule[p]? = some n
  planes : info.nmodule.length ≤ info.nchamber
  bits : info.nchamber ≤ 32
  modules : ∀ count ∈ info.nmodule, count ≤ 32768

-- What a chamber number stands for.
structure ChamberNumbers (info : GeneralInfo) (su : Setup F) (ich i j : Nat) : Prop where
  counted : ∃ count, info.nmodule[i]? = some count ∧ j < count
  place : ich = info.modulesBefore i + j
  plane : toInt16 (su.manager.getPlaneID ich) = i
  module : toInt16 (su.manager.getModuleID ich) = j

section
variable (info : GeneralInfo) (m : DBManager F) (su : Setup F) (configured : Configured info m su)
include configured

theorem chamber_numbers (ich : Nat) (chamber : ich < su.fNChambers) : ∃ i j, ChamberNumbers info su ich i j := by
  have below : ich < info.modulesTotal := Nat.lt_of_lt_of_le chamber configured.chambers
  rw [GeneralInfo.modulesTotal, modules_before_rows] at below
  obtain ⟨i, j, row, column, place⟩ := rows_cover info.count info.nmodule.length ich below
  obtain ⟨listed, count⟩ := count_listed info i row
  have inside : (j : Int) < info.nmodule[i] := by omega
  have few := configured.modules _ (List.getElem_mem row)
  have planes := configured.planes
  have bits := configured.bits
  obtain ⟨_, plane, module⟩ := DBManager.general_info_numbers info m configured.loaded i _ j listed (Int.natCast_nonneg j) inside
  rw [← modules_before_rows] at place
  have number : (info.modulesBefore i : Int) + j = ich := by rw [place, Nat.cast_add]
  rw [number] at plane module
  obtain ⟨geo, same⟩ := configured.manager
  have plane' : su.manager.getPlaneID ich = i := by
    rw [same]
    exact plane
  have module' : su.manager.getModuleID ich = j := by
    rw [same]
    exact module
  refine ⟨i, j, ⟨_, listed, inside⟩, place, ?_, ?_⟩
  · rw [plane']
    exact int16_exact _ (by omega) (by omega)
  · rw [module']
    exact int16_exact _ (by omega) (by omega)

theorem in_chamber_legal (fPlane fModule : Int) (inside : su.InChamber fPlane fModule) : 0 ≤ fPlane ∧ fPlane < m.fNChamber := by
  obtain ⟨ich, chamber, plane, _⟩ := inside
  obtain ⟨i, j, numbers⟩ := chamber_numbers info m su configured ich chamber
  obtain ⟨_, _, limit⟩ := DBManager.load_general_info_fields info m configured.loaded
  obtain ⟨count, found, _⟩ := numbers.counted
  have row := (List.getElem?_eq_some_iff.mp found).1
  have planes := configured.planes
  rw [plane, numbers.plane, limit]
  omega

variable [Arith F]

theorem strip_ids_present : ∀ id ∈ su.stripIDs, id.Exists m := by
  intro id member
  obtain ⟨⟨ich, ip, istrip⟩, listed, rfl⟩ := List.mem_map.mp member
  obtain ⟨chamber, below⟩ := (mem_strips su su.freshPlane _).mp listed
  obtain ⟨i, j, numbers⟩ := chamber_numbers info m su configured ich chamber
  obtain ⟨counts, channels, _⟩ := DBManager.load_general_info_fields info m configured.loaded
  obtain ⟨count, found, inside⟩ := numbers.counted
  have width := configured.channels su.spec[ich] (List.getElem_mem chamber) ip
  have strips : (su.freshPlane ich ip).fNStrips = toUInt16 (su.spec[ich].fPlanes ip).fNStrips := by
    rw [Setup.freshPlane, List.getElem?_eq_getElem chamber]
    rfl
  have top : istrip < (su.freshPlane ich ip).fNStrips := below
  have projection := projections ip
  simp only [Setup.stripID, numbers.plane, numbers.module]
  refine ⟨Int.natCast_nonneg i, ⟨count, ?_, Int.natCast_nonneg j, inside⟩, ?_, Int.natCast_nonneg istrip, ?_⟩
  · rw [counts]
    exact found
  · rcases projection with rfl | rfl
    · exact .inl rfl
    · exact .inr rfl
  · rw [channels]
    dsimp only
    omega

theorem strip_ids_nodup : su.stripIDs.Nodup := by
  refine List.Nodup.map_on (fun strip first strip' second same => ?_) (strips_nodup su su.freshPlane)
  obtain ⟨ich, ip, istrip⟩ := strip
  obtain ⟨ich', ip', istrip'⟩ := strip'
  obtain ⟨i, j, numbers⟩ := chamber_numbers info m su configured ich ((mem_strips su su.freshPlane _).mp first).1
  obtain ⟨i', j', numbers'⟩ := chamber_numbers info m su configured ich' ((mem_strips su su.freshPlane _).mp second).1
  simp only [Setup.stripID, numbers.plane, numbers.module, numbers'.plane, numbers'.module, StripID.mk.injEq] at same
  obtain ⟨plane, module, proj, chan⟩ := same
  have rows : i = i' := Int.ofNat.inj plane
  have columns : j = j' := Int.ofNat.inj module
  have chamber : ich = ich' := by rw [numbers.place, numbers'.place, rows, columns]
  have projection : ip = ip' := Fin.ext (Int.ofNat.inj proj)
  rw [chamber, projection, Int.ofNat.inj chan]

end

end

section
variable {F S : Type} [Libm F] {rng : Rng F}

-- The decoder has read the same numbers, and a geometry of its own.
def SharedBy (m : DBManager F) (dec : DecoderSetup F S) : Prop := ∃ geo, dec.manager = { m with fPMGeoInfo := geo }

theorem placed_strips_placed (info : GeneralInfo) (m : DBManager F) (su : Setup F) (configured : Configured info m su)
    (dec : DecoderSetup F S) (shared : SharedBy m dec) (e : SimEvent F) (placed : EventPlaced su e) :
    StripsPlaced dec e.fGEMStrips := by
  obtain ⟨counts, _, _⟩ := DBManager.load_general_info_fields info m configured.loaded
  obtain ⟨geo, same⟩ := shared
  obtain ⟨n, uniform⟩ := configured.uniform
  have apart : SlotRangesApart dec.manager.fNModule := by
    rw [same]
    exact counts ▸ uniform_ranges_apart info.nmodule n uniform
  refine ⟨addresses_unique_of_apart dec.manager dec.slots apart, fun s member => ?_, ?_⟩
  · rw [same]
    cases placed.strips with
    | inl none =>
        rw [none] at member
        cases member
    | inr all => exact strip_ids_present info m su configured _ (all ▸ List.mem_map_of_mem member)
  · cases placed.strips with
    | inl none =>
        rw [none]
        exact List.nodup_nil
    | inr all =>
        rw [all]
        exact strip_ids_nodup info m su configured

-- Why the decoding of an event of the digitization ends early.
def DecodeStops (dec : DecoderSetup F S) (e : SimEvent F) : LoadStop (DecodedEvent F S) → Prop
  | .hedErr _ => StripRefused dec e ∨ tooSoft dec e ∨ dec.fgDoCalo = true ∧ (SomeRefused dec ∨ BadScint e)
  | .hedFatal _ => False
  | .undefined => dec.fgDoCalo = true ∧ ∃ c ∈ e.fECalClusters, c.fDetFlag = 12 ∧ dec.fCaloThr ≤ c.fEnergy

theorem placed_event_decodes (info : GeneralInfo) (m : DBManager F) (su : Setup F) (configured : Configured info m su)
    (dec : DecoderSetup F S) (shared : SharedBy m dec) (keeps : dec.lib.Keeps) (sorts : Sorts dec.sort) (e : SimEvent F)
    (placed : EventPlaced su e) (tracked : e.fMCTracks ≠ []) :
    Settles (DecodeStops dec e) (Decoded dec e) (doLoadEvent dec e) := by
  obtain ⟨_, _, chambers⟩ := DBManager.load_general_info_fields info m configured.loaded
  have limit : dec.manager.fNChamber = m.fNChamber := by
    obtain ⟨geo, same⟩ := shared
    rw [same]
  have bits : dec.manager.fNChamber ≤ 32 := by
    rw [limit, chambers]
    exact configured.bits
  refine settles_weaken _ _ _ _ (event_settles dec e (placed_strips_placed info m su configured dec shared e placed) keeps sorts bits
    tracked) fun stop why => ?_
  cases stop with
  | hedErr d => exact why
  | hedFatal d =>
      obtain ⟨c, member, illegal⟩ := why
      have legal := in_chamber_legal info m su configured _ _ (placed.clusters c member)
      rw [limit] at illegal
      exact absurd illegal (by omega)
  | undefined => exact why

-- What the decoder makes of an event the digitization wrote.
def Shown (dec : DecoderSetup F S) (w : PassRecord F) (d : DecodedEvent F S) : Prop :=
  Decoded dec w.event d ∧ d.event_num = w.number ∧ d.fMCTracks = w.entry.1.event.fg4sbsGenData.map GenData.track

theorem read_event_decodes (input : PassInput F) (info : GeneralInfo) (m : DBManager F) (configured : Configured info m input.su)
    (dec : DecoderSetup F S) (shared : SharedBy m dec) (keeps : dec.lib.Keeps) (sorts : Sorts dec.sort) (fuel : Nat)
    (past : List (FileEntry F × Nat)) (written : List (PassRecord F)) (p : Pass F) (read : PassRead rng input fuel past written p)
    (w : PassRecord F) (member : w ∈ written) : Settles (DecodeStops dec w.event) (Shown dec w) (doLoadEvent dec w.event) := by
  have produced := read.produced w member
  obtain ⟨d, reachable, same, _⟩ := produced.strips
  have placed : EventPlaced input.su w.event := same ▸ reachable_placed input.su d reachable
  have listed : (w.entry, w.number) ∈ input.taken past :=
    read.taken ▸ List.mem_map_of_mem (f := fun w : PassRecord F => (w.entry, w.number)) member
  have taken : w.entry.1.taken = true := (List.mem_filter.mp listed).2
  have tracked : w.event.fMCTracks ≠ [] := by
    obtain ⟨_, tracks⟩ := Bool.and_eq_true_iff.mp taken
    rw [produced.info.tracks, FileEntry.event, List.map_map, ne_eq, List.map_eq_nil_iff]
    simpa using tracks
  have decoded := placed_event_decodes info m input.su configured dec shared keeps sorts w.event placed tracked
  cases outcome : doLoadEvent dec w.event with
  | ok d' =>
      rw [outcome] at decoded
      exact ⟨decoded, decoded.number.trans produced.info.number, decoded.tracks.trans produced.info.tracks⟩
  | error stop =>
      rw [outcome] at decoded
      exact decoded

end

theorem bench_configured (nstrip : Nat) (few : nstrip ≤ 128) : Configured ⟨1, 1, [1], 128, 1⟩ (bench nstrip 1).manager (bench nstrip 1) where
  loaded := rfl
  manager := ⟨_, rfl⟩
  chambers := Nat.le_refl 1
  channels := by
    intro ch member ip
    have width : ((toUInt16 nstrip : Nat) : Int) ≤ 128 := by
      rw [uint16_exact nstrip (by omega) (by omega)]
      omega
    rw [List.mem_singleton.mp member]
    rcases projections ip with rfl | rfl
    · exact width
    · exact width
  uniform := ⟨1, fun p bound => by
    have single : p + 1 < 1 := bound
    omega⟩
  planes := by decide
  bits := by decide
  modules := by decide

-- A library that takes everything, and no calorimeter: nothing is left to stop
-- the decoding.
theorem plain_setup_decodes (m : DBManager ℝ) (e : SimEvent ℝ) (post : DecodedEvent ℝ (List SlotData) → Prop)
    (settled : Settles (DecodeStops (plainSetup m) e) post (doLoadEvent (plainSetup m) e)) :
    ∃ d, doLoadEvent (plainSetup m) e = .ok d ∧ post d := by
  cases outcome : doLoadEvent (plainSetup m) e with
  | ok d =>
      rw [outcome] at settled
      exact ⟨d, rfl, settled⟩
  | error stop =>
      rw [outcome] at settled
      cases stop with
      | hedErr d =>
          rcases settled with ⟨crateslot, failed⟩ | soft | calo
          · cases failed.symm.trans (stored_slots_take _ _)
          · exact absurd soft.1 Bool.false_ne_true
          · exact absurd calo.1 Bool.false_ne_true
      | hedFatal d => exact settled.elim
      | undefined => exact absurd settled.1 Bool.false_ne_true

end Solgem
