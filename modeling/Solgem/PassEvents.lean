import Solgem.DigitizationPass
import Solgem.DigitizerShape
import Solgem.RecordedHits

set_option autoImplicit false

namespace Solgem

open Lib Digitizer

variable {F : Type} [Arith F] {rng : Rng F} {fails : Fault → Prop}

omit [Arith F] in
theorem record_hit_info (e : SimEvent F) (c : GEMCluster F) : (e.recordHit c).toEventInfo = e.toEventInfo := rfl

-- Digitizing changes the planes and what a plain Clear empties; the rest of
-- the event is what SetTreeEvent wrote.
theorem additive_digitize_info (su : Setup F) (d : Digitizer F) (gdata : SimHitData F) (any : ∀ fault, fails fault)
    (st : rng.State) :
    Ensures fails (fun d' _ => d'.fEvent.toEventInfo = d.fEvent.toEventInfo) ((d.additiveDigitize su gdata : Draw rng _) st) := by
  refine ensures_mono _ _ ?_ _ (additive_digitize_ensures su d gdata st
    (fun _ d' => d'.fEvent.toEventInfo = d.fEvent.toEventInfo) rfl ?_)
  · intro d' _ outcome
    cases outcome with
    | inl unchanged => rw [unchanged.2]
    | inr looped =>
        obtain ⟨_, looped, kept, cleared⟩ := looped
        rw [cleared]
        exact kept
  · intro trigger_jitter _ h d1 st1 _ kept
    refine digitize_hit_ensures su gdata.fSource trigger_jitter d1 h st1 _ (fun _ => kept) (fun ch _ => ?_)
    refine digitize_accepted_ensures su gdata.fSource trigger_jitter d1 h ch st1 _ (any _) (fun _ _ _ _ => any _) ?_
    intro ion _ time_zero fdh st' _ _
    refine ensures_mono _ _ ?_ _ (cumulate_hit_frame su _ h _ any st')
    rintro d' _ ⟨fDP, released, rfl⟩
    rw [set_tree_hit_state]
    exact (record_hit_info _ _).trans kept

-- A drawn time is all that changes of a calorimeter cluster.
structure EventInfoSet (run evnum : Int) (f : Geant4Event F) (e : EventInfo F) : Prop where
  run : e.fRunID = run
  number : e.fEvtID = evnum
  weight : ∀ gen ∈ f.fg4sbsGenData.head?, e.fWeight = gen.fWeight
  tracks : e.fMCTracks = f.fg4sbsGenData.map GenData.track
  ecal : List.Forall₂ (fun clus (stored : ECalCluster F) => stored = { clus with fTime := stored.fTime }) f.fECalClusters e.fECalClusters
  scint : List.Forall₂ (fun clus (stored : ScintCluster F) => stored = { clus with fTime := stored.fTime }) f.fScintClusters
    e.fScintClusters

theorem set_tree_event_info (su : Setup F) (d : Digitizer F) (tsgd : SimHitData F) (f : Geant4Event F) (evnum : Int)
    (counted : 0 ≤ evnum) (st : rng.State) :
    Ensures fails (fun d' _ => ∃ e, d' = { d with fEvent := e } ∧ EventInfoSet (toInt32 tsgd.fRunID) evnum f e.toEventInfo)
      ((d.setTreeEvent su tsgd f evnum : Draw rng _) st) := by
  have timed : ∀ s, Ensures fails (fun _ _ => True) ((drawClusterTime su tsgd.fSource : Draw rng F) s) := by
    intro s
    rw [drawClusterTime]
    split
    · exact trivial
    · exact ensures_bind (fun _ _ => True) _ _ _ s trivial fun _ s' _ =>
        ensures_bind (fun _ _ => True) _ _ _ s' trivial fun _ _ _ => trivial
  refine ensures_bind _ _ _ _ st (ensures_mapM _ (fun clus stored => stored = { clus with fTime := stored.fTime }) _
    (fun clus _ s => ?_) st) fun ecal st1 ecal_times => ?_
  · exact ensures_bind (fun _ _ => True) _ _ _ s (timed s) fun _ s' _ => ensures_pure _ _ s' rfl
  refine ensures_bind _ _ _ _ st1 (ensures_mapM _ (fun clus stored => stored = { clus with fTime := stored.fTime }) _
    (fun clus _ s => ?_) st1) fun scint st2 scint_times => ?_
  · exact ensures_bind (fun _ _ => True) _ _ _ s (timed s) fun _ s' _ => ensures_pure _ _ s' rfl
  · refine ⟨_, rfl, ?_⟩
    rw [add_tracks, if_neg (not_lt.mpr counted)]
    generalize toInt32 tsgd.fRunID = run
    refine ⟨rfl, rfl, fun gen first => ?_, rfl, ecal_times, scint_times⟩
    rw [Option.mem_def.mp first]
    rfl

namespace Digitizer

-- An event while it is digitized: what it had before, and the traces of the
-- data sets given so far.
structure Built (rng : Rng F) (su : Setup F) (before : Digitizer F) (sets : List (SimHitData F)) (d : Digitizer F) : Prop where
  info : d.fEvent.toEventInfo = before.fEvent.toEventInfo
  tree : d.fOTree = before.fOTree
  labelled : Labelled (sets.flatMap su.labels) d.fEvent
  recorded : Recorded su sets d.fEvent.fGEMClust
  numbered : Numbered d.fEvent
  mode : StripMode.Holds rng su d (if sets.all (fun gdata => gdata.fHitData.isEmpty) then .lost else .dirty)

theorem built_cleared (su : Setup F) (d : Digitizer F) : Built rng su d [] d.clearAll := by
  constructor
  · rfl
  · rfl
  · exact ⟨rfl, rfl⟩
  · exact ⟨[], .nil, rfl⟩
  · rfl
  · exact ⟨rfl, rfl⟩

theorem built_additive (su : Setup F) (before d : Digitizer F) (sets : List (SimHitData F)) (built : Built rng su before sets d)
    (gdata : SimHitData F) (st : rng.State) :
    Ensures (fun _ => True) (fun d' _ => Built rng su before (sets ++ [gdata]) d') ((d.additiveDigitize su gdata : Draw rng _) st) := by
  have any : ∀ fault : Fault, (fun _ => True) fault := fun _ => trivial
  have info := additive_digitize_info su d gdata any st
  have effect := additive_digitize_effect su d gdata any st
  have labelled := additive_digitize_labelled su d gdata _ built.labelled st
  have numbered := additive_digitize_numbered su d gdata built.numbered any st
  have recorded := additive_digitize_recorded su d gdata any st
  have mode := additive_digitize_mode su d gdata _ built.mode any st
  refine ensures_mono _ _ ?_ _ (ensures_and _ _ _ (ensures_and _ _ _ info effect)
    (ensures_and _ _ _ labelled (ensures_and _ _ _ recorded (ensures_and _ _ _ numbered mode))))
  rintro d' _ ⟨⟨info', effect'⟩, labelled', ⟨clusters, appended, recorded'⟩, numbered', mode'⟩
  refine ⟨info'.trans built.info, effect'.1.trans built.tree, ?_, ?_, numbered', ?_⟩
  · rwa [List.flatMap_append, List.flatMap_singleton]
  · rw [appended]
    exact recorded_append su sets _ built.recorded gdata clusters recorded'
  · cases empty : gdata.fHitData.isEmpty with
    | true =>
        rw [empty, if_pos rfl] at mode'
        simpa [empty] using mode'
    | false =>
        rw [empty, if_neg Bool.false_ne_true] at mode'
        simpa [empty] using mode'

end Digitizer

open BackgroundLoop

-- The background loop with the digitizer runs as the loop over the counters
-- alone, and the digitizer is given the data sets of the files in order.
theorem add_background_ensures (input : PassInput F) (inv : List (SimHitData F) → Digitizer F → rng.State → Prop)
    (step : ∀ done gdata d st, inv done d st →
      Ensures fails (inv (done ++ [gdata])) ((d.additiveDigitize input.su gdata : Draw rng _) st))
    (fuel : Nat) (l : BackgroundLoop) (d : Digitizer F) (gb : BackgroundPointer) (done : List (SimHitData F)) (st : rng.State)
    (initial : inv done d st) :
    Ensures fails (Ended (fun added st' => ∃ files,
        fueled (attempt input.opens input.limit input.nbacktoadd) fuel l = some (files, added.1) ∧
        inv (done ++ files.flatMap input.fileData) added.2.1 st' ∧
        added.2.2 = if files.all (fun file => (input.fileData file).isEmpty) then gb else .live))
      ((addBackground input fuel l (d, gb) : Draw rng _) st) := by
  induction fuel generalizing l d gb done st with
  | zero => exact ensures_pure _ none st (ended_none _ st)
  | succ fuel ih =>
      rw [addBackground]
      by_cases below : l.Nfile < l.N_bg_file_g_post
      · rw [if_pos below]
        cases found : input.background l.Nfile with
        | none =>
            have closed : input.opens l.Nfile = false := by rw [PassInput.opens, found]; rfl
            rw [fueled_step _ _ _ _ _ (attempt_missing _ _ _ l below closed)]
            refine ensures_mono _ _ ?_ _ (ih (l.missing input.limit input.nbacktoadd) d gb done st initial)
            intro ended st' holds added same
            obtain ⟨files, ran, rest⟩ := holds added same
            exact ⟨files, by rw [ran]; rfl, rest⟩
        | some entries =>
            have opened : input.opens l.Nfile = true := by rw [PassInput.opens, found]; rfl
            have data : input.fileData l.Nfile = input.backgroundData entries := by rw [PassInput.fileData, found]; rfl
            rw [fueled_step _ _ _ _ _ (attempt_opened _ _ _ l below opened)]
            refine ensures_bind (inv (done ++ input.backgroundData entries)) _ _ _ st ?_ fun d' st1 kept => ?_
            · exact ensures_foldlM _ (fun past d st => inv (done ++ past) d st) [] _
                (fun past gdata d st _ kept => by rw [← List.append_assoc]; exact step _ gdata d st kept) d st
                (by rwa [List.append_nil])
            refine ensures_mono _ _ ?_ _ (ih l.next d' (if entries.isEmpty then gb else .live) _ st1 kept)
            intro ended st' holds added same
            obtain ⟨files, ran, built, pointer⟩ := holds added same
            refine ⟨l.Nfile :: files, by rw [ran]; rfl, ?_, ?_⟩
            · rwa [List.flatMap_cons, data, ← List.append_assoc]
            · have none_read : (input.fileData l.Nfile).isEmpty = entries.isEmpty := by
                rw [data, PassInput.backgroundData]
                cases entries <;> rfl
              rw [pointer, List.all_cons, none_read]
              cases entries.isEmpty <;> simp
      · rw [if_neg below]
        refine ensures_pure _ _ st (ended_some _ _ st ⟨[], ?_, by rwa [List.flatMap_nil, List.append_nil], rfl⟩)
        exact fueled_done _ _ l ((attempt_done _ _ _ l).mpr (not_lt.mp below))

namespace Digitizer

-- The event FillTree writes. Its strips are read off the planes if any data
-- set had a hit; otherwise there are none.
structure Filled (rng : Rng F) (su : Setup F) (before : Digitizer F) (sets : List (SimHitData F)) (d : Digitizer F) : Prop where
  info : d.fEvent.toEventInfo = before.fEvent.toEventInfo
  tree : d.fOTree = before.fOTree.map (fun events => events ++ [d.fEvent])
  labelled : Labelled (sets.flatMap su.labels) d.fEvent
  recorded : Recorded su sets d.fEvent.fGEMClust
  numbered : Numbered d.fEvent
  strips : (∃ gdata ∈ sets, gdata.fHitData ≠ []) → Shows rng su d.fDP d.fEvent.fGEMStrips
  bare : (∀ gdata ∈ sets, gdata.fHitData = []) → d.fEvent.fGEMStrips = []

theorem built_filled (su : Setup F) (before d : Digitizer F) (sets : List (SimHitData F)) (built : Built rng su before sets d)
    (st : rng.State) : Ensures (fun _ => True) (fun d' _ => Filled rng su before sets d') ((d.fillTree su : Draw rng _) st) := by
  have mode := built.mode
  by_cases empty : sets.all (fun gdata => gdata.fHitData.isEmpty) = true
  · rw [if_pos empty] at mode
    have none_hit : ∀ gdata ∈ sets, gdata.fHitData = [] := fun gdata member =>
      List.isEmpty_iff.mp (List.all_eq_true.mp empty gdata member)
    refine fill_tree_ensures su d (fun _ => trivial) st _ (fun _ => ?_) (fun unfilled => ?_)
    · refine ⟨built.info, by rw [writeEvent, built.tree], built.labelled, built.recorded, built.numbered, ?_, fun _ => mode.2⟩
      rintro ⟨gdata, member, some_hit⟩
      exact absurd (none_hit gdata member) some_hit
    · rw [mode.1] at unfilled
      cases unfilled
  · rw [if_neg empty] at mode
    refine fill_tree_ensures su d (fun _ => trivial) st _ (fun filled => ?_) (fun _ records shows => ?_)
    · rw [show d.fFilledStrips = false from mode] at filled
      cases filled
    · refine ⟨built.info, by rw [writeEvent, built.tree], ⟨built.labelled.clusters, built.labelled.count⟩, built.recorded,
        built.numbered, fun _ => shows, fun none_hit => absurd ?_ empty⟩
      exact List.all_eq_true.mpr (fun gdata member => List.isEmpty_iff.mpr (none_hit gdata member))

end Digitizer

-- One event of the output tree, with what it was made from: the entry of the
-- signal file, its number in the pass, and the background files.
structure PassRecord (F : Type) where
  entry : FileEntry F × Nat
  number : Nat
  files : List Int
  event : SimEvent F

def PassRecord.dataSets (input : PassInput F) (w : PassRecord F) : List (SimHitData F) :=
  input.gemData 0 w.entry.1 w.entry.2 :: w.files.flatMap input.fileData

structure Produced (rng : Rng F) (input : PassInput F) (w : PassRecord F) : Prop where
  info : EventInfoSet 0 w.number w.entry.1.event w.event.toEventInfo
  labelled : Labelled ((w.dataSets input).flatMap input.su.labels) w.event
  recorded : Recorded input.su (w.dataSets input) w.event.fGEMClust
  numbered : Numbered w.event
  strips : ∃ d, Reachable rng input.su d ∧ d.fEvent = w.event ∧
    ((∃ gdata ∈ w.dataSets input, gdata.fHitData ≠ []) → Shows rng input.su d.fDP w.event.fGEMStrips)
  bare : (∀ gdata ∈ w.dataSets input, gdata.fHitData = []) → w.event.fGEMStrips = []

-- An event is digitized if the file has hits and a generated track for it.
def FileEntry.taken (entry : FileEntry F) : Bool := !entry.fg4sbsHitData.isEmpty && !entry.fg4sbsGenData.isEmpty

structure PassState (rng : Rng F) (input : PassInput F) (events : List (SimEvent F)) (p : Pass F) : Prop where
  reachable : Reachable rng input.su p.digitizer
  tree : p.digitizer.fOTree = some events
  pointer : p.gb ≠ .live

structure EventWritten (rng : Rng F) (input : PassInput F) (fuel : Nat) (p : Pass F) (events : List (SimEvent F)) (w : PassRecord F)
    (p' : Pass F) : Prop where
  produced : Produced rng input w
  number : w.number = p.nevent
  state : PassState rng input (events ++ [w.event]) p'
  nevent : p'.nevent = p.nevent + 1
  good : p'.Ngood = p.Ngood + 1
  files : ∃ l, backgroundFiles input.opens input.limit input.nbacktoadd fuel p.N_bg_file_g = some (w.files, l) ∧
    p'.N_bg_file_g = l.nextFile input.limit
  deleted : p'.badDelete =
    (p.badDelete || (input.nbacktoadd != 0 && w.files.all (fun file => (input.fileData file).isEmpty)))

theorem reached (su : Setup F) (d : Digitizer F) (reachable : Reachable rng su d) (c : Call F) (post : Digitizer F → rng.State → Prop)
    (st : rng.State) (ensured : Ensures fails post ((c.apply su d : Draw rng _) st)) :
    Ensures fails (fun d' st' => post d' st' ∧ Reachable rng su d') ((c.apply su d : Draw rng _) st) := by
  refine ensures_mono _ _ ?_ _ (ensures_run _ _ ensured)
  rintro d' st' ⟨holds, ran⟩
  exact ⟨holds, Reachable.call d d' c st st' reachable ran⟩

omit [Arith F] in
theorem no_background_files (input : PassInput F) (fuel : Nat) (g : Int) (none_added : input.nbacktoadd = 0) (files : List Int)
    (l : BackgroundLoop)
    (rotated : backgroundFiles input.opens input.limit input.nbacktoadd (fuel + 1) g = some (files, l)) : files = [] := by
  have idle := fueled_done (attempt input.opens input.limit input.nbacktoadd) fuel (BackgroundLoop.start input.nbacktoadd g)
    ((attempt_done _ _ _ _).mpr (by simp only [BackgroundLoop.start, none_added]; omega))
  exact congrArg Prod.fst (Option.some.inj (rotated.symm.trans idle))

theorem pass_finish_writes (input : PassInput F) (fuel : Nat) (p : Pass F) (entry : FileEntry F × Nat)
    (events : List (SimEvent F)) (state : PassState rng input events p) (before : Digitizer F)
    (tree : before.fOTree = p.digitizer.fOTree) (info : EventInfoSet 0 p.nevent entry.1.event before.fEvent.toEventInfo)
    (files : List Int) (l : BackgroundLoop) (d : Digitizer F) (gb : BackgroundPointer)
    (rotated : backgroundFiles input.opens input.limit input.nbacktoadd (fuel + 1) p.N_bg_file_g = some (files, l))
    (built : Built rng input.su before (input.gemData 0 entry.1 entry.2 :: files.flatMap input.fileData) d)
    (reachable : Reachable rng input.su d)
    (pointer : gb = if files.all (fun file => (input.fileData file).isEmpty) then p.gb else .live) (st : rng.State) :
    Ensures (fun _ => True) (fun p' _ => ∃ w, w.entry = entry ∧ EventWritten rng input (fuel + 1) p events w p')
      ((p.finish input (l, d, gb) : Draw rng _) st) := by
  refine ensures_bind _ _ _ _ st (reached input.su d reachable .fillTree _ st (built_filled input.su _ d _ built st)) ?_
  rintro d' st' ⟨filled, reached'⟩
  refine ensures_pure _ _ st' ⟨⟨entry, p.nevent, files, d'.fEvent⟩, rfl, ?_⟩
  constructor
  · exact ⟨filled.info ▸ info, filled.labelled, filled.recorded, filled.numbered, ⟨d', reached', rfl, filled.strips⟩, filled.bare⟩
  · rfl
  · refine ⟨reached', ?_, ?_⟩
    · rw [filled.tree, tree, state.tree]
      rfl
    · by_cases none_added : input.nbacktoadd = 0
      · rw [no_background_files input fuel _ none_added files l rotated] at pointer
        dsimp only
        rw [if_pos none_added, pointer]
        exact state.pointer
      · dsimp only
        rw [if_neg none_added]
        decide
  · rfl
  · rfl
  · exact ⟨l, rotated, rfl⟩
  · dsimp only
    rw [pointer]
    cases files.all (fun file => (input.fileData file).isEmpty) with
    | true =>
        have dead : (p.gb != .live) = true := bne_iff_ne.mpr state.pointer
        rw [if_pos rfl, dead]
    | false => rfl

theorem pass_event_writes (input : PassInput F) (fuel : Nat) (p : Pass F) (entry : FileEntry F × Nat) (taken : entry.1.taken = true)
    (events : List (SimEvent F)) (state : PassState rng input events p) (st : rng.State) :
    Ensures (fun _ => True) (Ended (fun p' _ => ∃ w, w.entry = entry ∧ EventWritten rng input (fuel + 1) p events w p'))
      ((p.event input (fuel + 1) entry : Draw rng _) st) := by
  obtain ⟨hits, tracks⟩ := Bool.and_eq_true_iff.mp taken
  rw [Pass.event, if_neg (by simpa using hits), if_neg (by simpa using tracks)]
  have source := @set_tree_event_info F _ rng (fun _ => True) input.su p.digitizer (input.gemData 0 entry.1 entry.2) entry.1.event
    p.nevent (Int.natCast_nonneg _) st
  have run : toInt32 (input.gemData 0 entry.1 entry.2).fRunID = 0 := int32_exact 0 (by omega) (by omega)
  rw [run] at source
  refine ensures_bind _ _ _ _ st (reached input.su p.digitizer state.reachable (.setTreeEvent _ _ _) _ st source) ?_
  rintro d1 st1 ⟨⟨e, same, info⟩, reached1⟩
  have event_set : EventInfoSet 0 p.nevent entry.1.event d1.fEvent.toEventInfo := by
    rw [same]
    exact info
  have digitized := built_additive input.su d1 _ [] (built_cleared input.su _) (input.gemData 0 entry.1 entry.2) st1
  refine ensures_bind _ _ _ _ st1 (reached input.su _ reached1 (.digitize _) _ st1 digitized) ?_
  rintro d2 st2 ⟨built, reached2⟩
  refine proceed_ensures (fun added _ => ∃ files,
    backgroundFiles input.opens input.limit input.nbacktoadd (fuel + 1) p.N_bg_file_g = some (files, added.1) ∧
    (Built rng input.su d1 (input.gemData 0 entry.1 entry.2 :: files.flatMap input.fileData) added.2.1 ∧
      Reachable rng input.su added.2.1) ∧
    added.2.2 = if files.all (fun file => (input.fileData file).isEmpty) then p.gb else .live) _ _ _ st2 ?_ ?_
  · by_cases none_added : input.nbacktoadd = 0
    · rw [if_pos none_added]
      refine ensures_pure _ _ st2 (ended_some _ _ st2 ⟨[], ?_, ⟨built, reached2⟩, rfl⟩)
      exact fueled_done _ _ _ ((attempt_done _ _ _ _).mpr (by simp only [BackgroundLoop.start, none_added]; omega))
    · rw [if_neg none_added]
      refine add_background_ensures input (fun sets d _ => Built rng input.su d1 sets d ∧ Reachable rng input.su d) ?_ (fuel + 1) _
        d2 p.gb [input.gemData 0 entry.1 entry.2] st2 ⟨built, reached2⟩
      rintro sets gdata d st ⟨before, reachable⟩
      exact reached input.su d reachable (.additiveDigitize gdata) _ st (built_additive input.su _ d sets before gdata st)
  · rintro ⟨l, d3, gb⟩ st3 ⟨files, rotated, ⟨built3, reached3⟩, pointer⟩
    refine ensures_bind _ _ _ _ st3 ?_ fun p' st4 written => ensures_pure _ _ st4 (ended_some _ _ st4 written)
    exact pass_finish_writes input fuel p entry events state d1 (by rw [same]) event_set files l d3 gb rotated built3 reached3
      pointer st3

namespace PassInput

-- The entries of the signal files in the order they are read.
def stream (input : PassInput F) (files : List (Option (List (FileEntry F)))) : List (FileEntry F × Nat) :=
  files.flatMap (fun file => file.elim [] (Pass.fileEntries input))

-- The entries that are digitized, with the numbers of their events.
def taken (input : PassInput F) (entries : List (FileEntry F × Nat)) : List ((FileEntry F × Nat) × Nat) :=
  ((entries.take (input.Nmax - input.Nmin)).zipIdx input.Nmin).filter (fun entry => entry.1.1.taken)

end PassInput

-- Where a pass stands when it has read some entries, with the events it wrote.
structure PassRead (rng : Rng F) (input : PassInput F) (fuel : Nat) (past : List (FileEntry F × Nat)) (written : List (PassRecord F))
    (p : Pass F) : Prop where
  state : PassState rng input (written.map PassRecord.event) p
  taken : written.map (fun w => (w.entry, w.number)) = input.taken past
  produced : ∀ w ∈ written, Produced rng input w
  shared : backgroundRun input.opens input.limit input.nbacktoadd fuel written.length 0 =
    some (written.map PassRecord.files, p.N_bg_file_g)
  good : p.Ngood = written.length
  nevent : p.nevent = input.Nmin + min past.length (input.Nmax - input.Nmin)
  deleted : p.badDelete =
    (input.nbacktoadd != 0 && written.any (fun w => w.files.all (fun file => (input.fileData file).isEmpty)))

omit [Arith F] in
theorem taken_snoc (input : PassInput F) (past : List (FileEntry F × Nat)) (entry : FileEntry F × Nat) :
    input.taken (past ++ [entry]) = input.taken past ++
      if past.length < input.Nmax - input.Nmin ∧ entry.1.taken then [(entry, input.Nmin + past.length)] else [] := by
  rw [PassInput.taken, PassInput.taken, List.take_append, List.zipIdx_append, List.filter_append]
  congr 1
  by_cases room : past.length < input.Nmax - input.Nmin
  · have whole : past.take (input.Nmax - input.Nmin) = past := List.take_of_length_le room.le
    have one : [entry].take (input.Nmax - input.Nmin - past.length) = [entry] := List.take_of_length_le (by simp; omega)
    rw [whole, one]
    by_cases taken : entry.1.taken = true
    · simp [room, taken]
    · simp [taken]
  · have empty : [entry].take (input.Nmax - input.Nmin - past.length) = [] := by
      rw [show input.Nmax - input.Nmin - past.length = 0 by omega, List.take_zero]
    rw [empty, if_neg (fun both => room both.1)]
    rfl

theorem pass_event_skips (input : PassInput F) (fuel : Nat) (p : Pass F) (entry : FileEntry F × Nat) (skipped : entry.1.taken = false) :
    (p.event input fuel entry : Draw rng _) = pure (some p.skip) := by
  rw [Pass.event]
  rw [FileEntry.taken, Bool.and_eq_false_iff] at skipped
  cases skipped with
  | inl no_hits => rw [if_pos (by simpa using no_hits)]
  | inr no_tracks =>
      rw [if_pos (show entry.1.fg4sbsGenData.isEmpty = true by simpa using no_tracks)]
      split <;> rfl

theorem pass_reads (input : PassInput F) (fuel : Nat) (past : List (FileEntry F × Nat)) (entry : FileEntry F × Nat)
    (written : List (PassRecord F)) (p : Pass F) (read : PassRead rng input (fuel + 1) past written p) (st : rng.State) :
    Ensures (fun _ => True) (Ended (fun p' _ => ∃ written', PassRead rng input (fuel + 1) (past ++ [entry]) written' p'))
      ((p.guarded input (fuel + 1) entry : Draw rng _) st) := by
  have nevent := read.nevent
  have snoc := taken_snoc input past entry
  have length : (past ++ [entry]).length = past.length + 1 := by simp
  rw [Pass.guarded]
  by_cases room : p.nevent < input.Nmax
  · rw [if_pos room]
    have inside : past.length < input.Nmax - input.Nmin := by omega
    by_cases taken : entry.1.taken = true
    · refine ensures_mono _ _ ?_ _ (pass_event_writes input fuel p entry taken _ read.state st)
      intro ended st' holds p' same
      obtain ⟨w, named, done⟩ := holds p' same
      obtain ⟨l, rotated, moved⟩ := done.files
      refine ⟨written ++ [w], ?_⟩
      constructor
      · rw [List.map_append]
        exact done.state
      · rw [snoc, if_pos ⟨inside, taken⟩, List.map_append, read.taken, List.map_singleton, named, done.number, nevent,
          Nat.min_eq_left inside.le]
      · intro w' member
        cases List.mem_append.mp member with
        | inl earlier => exact read.produced w' earlier
        | inr last => exact List.mem_singleton.mp last ▸ done.produced
      · rw [List.length_append, List.map_append, moved]
        exact background_run_snoc _ _ _ _ _ _ _ _ _ _ read.shared rotated
      · rw [done.good, read.good, List.length_append, List.length_singleton]
      · rw [done.nevent, nevent, length]
        omega
      · rw [done.deleted, read.deleted, List.any_append, List.any_cons, List.any_nil, Bool.or_false]
        cases (input.nbacktoadd != 0) <;> simp
    · rw [pass_event_skips input _ p entry (by simpa using taken)]
      refine ensures_pure _ _ st (ended_some _ _ st ⟨written, ?_⟩)
      rw [if_neg (fun both => taken both.2), List.append_nil] at snoc
      refine ⟨⟨read.state.reachable, read.state.tree, read.state.pointer⟩, by rw [snoc, read.taken], read.produced, read.shared,
        read.good, ?_, read.deleted⟩
      rw [Pass.skip, length, nevent]
      dsimp only
      omega
  · rw [if_neg room]
    have outside : ¬ past.length < input.Nmax - input.Nmin := by omega
    refine ensures_pure _ _ st (ended_some _ _ st ⟨written, ?_⟩)
    rw [if_neg (fun both => outside both.1), List.append_nil] at snoc
    refine ⟨read.state, by rw [snoc, read.taken], read.produced, read.shared, read.good, ?_, read.deleted⟩
    rw [length, nevent]
    omega

theorem pass_stream (input : PassInput F) (fuel : Nat) (files : List (Option (List (FileEntry F)))) (ion : IonState F) :
    (digitizationPass input fuel files ion : Draw rng _) =
      proceedAll (Pass.guarded input fuel) (input.stream files) (Pass.start input ion) := by
  refine proceed_all_flat _ _ _ (fun p file => ?_) files _
  cases file with
  | none => rfl
  | some entries => rfl

theorem pass_run_reads (input : PassInput F) (fuel : Nat) (files : List (Option (List (FileEntry F)))) (ion : IonState F) (p : Pass F)
    (st st' : rng.State) (ran : (digitizationPass input (fuel + 1) files ion : Draw rng _) st = .ok (some p, st')) :
    ∃ written, PassRead rng input (fuel + 1) (input.stream files) written p := by
  have initial : PassRead rng input (fuel + 1) [] [] (Pass.start input ion) :=
    ⟨⟨Reachable.init ion (some []), rfl, fun same => nomatch same⟩, by simp [PassInput.taken], (fun _ member => nomatch member), rfl, rfl,
      by simp [Pass.start], by simp [Pass.start]⟩
  have run := proceed_all_ensures (Pass.guarded input (fuel + 1))
    (fun past p _ => ∃ written, PassRead rng input (fuel + 1) past written p)
    (fun past entry p st read => by
      obtain ⟨written, read⟩ := read
      exact pass_reads input fuel past entry written p read st)
    [] (input.stream files) (Pass.start input ion) st ⟨[], initial⟩
  rw [pass_stream] at ran
  exact ensures_ok _ _ _ _ run ran p rfl

-- A hit record and a track record filled with zeros: the hit has no deposit.
noncomputable def zeroRecord (size : Nat) : G4SBSHitData ℝ := ⟨1, size, 18446744073709551615#64, fun _ => 0⟩

noncomputable def quietEntry : FileEntry ℝ := ⟨[zeroRecord 24], [zeroRecord 15], [], []⟩

noncomputable def benchPass : PassInput ℝ := ⟨bench 1 1, 0, 0, 1, 0, 1000, fun _ => none⟩

theorem quiet_entry_hits (input : PassInput ℝ) (fEvNum : Nat) : (input.gemData 0 quietEntry fEvNum).fHitData = [] := by
  have quiet : ¬ (0.0 : ℝ) < (zeroRecord 24).getData 1 := by
    rw [G4SBSHitData.getData, if_neg (by decide), if_neg (by decide), zeroRecord]
    norm_num
  refine List.map_eq_nil_iff.mpr ((Geant4File.gem_data_hits _ 0).trans ?_)
  have packed : [zeroRecord 24].filter (fun h => decide ((0.0 : ℝ) < h.getData 1)) = [] := by
    rw [List.filter_singleton, decide_eq_false quiet]
    rfl
  exact List.map_eq_nil_iff.mpr packed

theorem quiet_pass_runs :
    ∃ p, (digitizationPass benchPass 1 [some [quietEntry]] unwritten : Draw (Rng.scripted ℝ) _) [] = .ok (some p, []) := by
  have digitized : ∀ d : Digitizer ℝ, (d.digitize (bench 1 1) (benchPass.gemData 0 quietEntry 0) : Draw (Rng.scripted ℝ) _) [] =
      .ok (d.clearAll, []) := by
    intro d
    rw [digitize, additiveDigitize, quiet_entry_hits]
    rfl
  obtain ⟨p, event⟩ : ∃ p, ((Pass.start benchPass unwritten).event benchPass 1 (quietEntry, 0) : Draw (Rng.scripted ℝ) _) [] =
      .ok (some p, []) :=
    ⟨_, (@draw_bind_of ℝ (Rng.scripted ℝ) _ _ _ _ _ [] [] rfl).trans
      ((@draw_bind_of ℝ (Rng.scripted ℝ) _ _ _ _ _ [] [] (digitized _)).trans rfl)⟩
  refine ⟨p, ?_⟩
  rw [pass_stream]
  exact (@draw_bind_of ℝ (Rng.scripted ℝ) _ _ _ _ (some p) [] [] event).trans rfl

end Solgem
