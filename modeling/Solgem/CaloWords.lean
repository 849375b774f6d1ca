import Solgem.Lib.Outcome
import Solgem.PointDifferences

set_option autoImplicit false

namespace Solgem

open Lib

section
variable {F S : Type} [Libm F]

-- The clusters of the two calorimeters that count.
def isHCal (su : DecoderSetup F S) (c : ECalCluster F) : Bool := decide (c.fDetFlag = 10 ∧ su.fCaloThr ≤ c.fEnergy)

def isElectron (su : DecoderSetup F S) (c : ECalCluster F) : Bool := decide (c.fDetFlag = 12 ∧ su.fCaloThr ≤ c.fEnergy)

def caloWord (su : DecoderSetup F S) (x y : F) : Int × Int := (su.bits (Arith.single x), su.bits (Arith.single y))

def vertexPoint (vz : F) : FitPoint F :=
  let vertex_ECAL := ECALAxes.components (⟨0.0, 0.0, vz⟩ : V3 F)
  ⟨vertex_ECAL.x, vertex_ECAL.y, vertex_ECAL.z, Libm.pow 0.001 (-2.0), Libm.pow 0.001 (-2.0)⟩

def showerPoint (xECal yECal : F) : FitPoint F := ⟨xECal, yECal - yoff_ECAL, 4.5, Libm.pow sigx_ECAL (-2.0), Libm.pow sigy_ECAL (-2.0)⟩

-- The points of the fit that belong to one cluster: the vertex, the
-- scintillator hits and the shower.
def clusterPoints (su : DecoderSetup F S) (fScintClusters : List (ScintCluster F)) (vz : F) (c : ECalCluster F) :
    Option (List (FitPoint F)) := do
  let (xECal, yECal) ← calcShowerCoordinates su.log su.shower ((c.fXPos - c.fXMax) / ECAL_max_cell_size)
    ((c.fYPos - c.fYMax) / ECAL_max_cell_size) c.fXMax c.fYMax c.fEnergy 4.5
  let hits ← (addScints [vertexPoint vz] fScintClusters).join
  some (hits ++ [showerPoint xECal yECal])

-- A track of the electron and the focal plane it predicts.
structure ElectronTrack (F : Type) where
  line : FitLine F
  plane : FocalPlane F

-- The points are not cleared between the clusters: a track is fitted through
-- those of its cluster and of all clusters before it.
structure ElectronTracks (su : DecoderSetup F S) (fScintClusters : List (ScintCluster F)) (vz : F) (clusters : List (ECalCluster F))
    (groups : List (List (FitPoint F))) (tracks : List (ElectronTrack F)) : Prop where
  each : List.Forall₂ (fun c points => clusterPoints su fScintClusters vz c = some points) clusters groups
  count : tracks.length = clusters.length
  fitted : ∀ (k : Nat) (t : ElectronTrack F), tracks[k]? = some t →
    fitOf su.invert (groups.take (k + 1)).flatten ⟨0.0, 0.0, 0.0, 0.0⟩ = some t.line ∧ electronFocalPlane su vz t.line = some t.plane

-- What the calorimeter branch loads into a channel.
def caloWords (su : DecoderSetup F S) (clusters : List (ECalCluster F)) (tracks : List (ElectronTrack F)) (a : RocAddress) :
    List (Int × Int) :=
  if a ∈ hcalChannels then (clusters.filter (isHCal su)).map (fun c => caloWord su c.fXPos c.fYPos)
  else if a ∈ focalChannels then tracks.map (fun t => caloWord su t.plane.xfp t.plane.yfp)
  else if a ∈ secondChannels then
    tracks.map (fun t => caloWord su (t.plane.xfp + 0.48191 * t.plane.xpfp) (t.plane.yfp + 0.48191 * t.plane.ypfp))
  else []

def wordsAt (loads : List SlotData) (a : RocAddress) : List (Int × Int) :=
  (entriesAt SlotData.address a loads).map (fun d => (d.dat, d.raw))

theorem words_at_append (first second : List SlotData) (a : RocAddress) :
    wordsAt (first ++ second) a = wordsAt first a ++ wordsAt second a := by
  rw [wordsAt, entriesAt, List.filter_append, List.map_append]
  rfl

theorem calo_loads_at (su : DecoderSetup F S) (first second : RocAddress) (apart : first ≠ second) (x y : F) (a : RocAddress) :
    wordsAt (caloLoads su [first, second] x y) a = if a ∈ [first, second] then [caloWord su x y] else [] := by
  rw [wordsAt, entriesAt, caloLoads, List.map_cons, List.map_cons, List.map_nil]
  by_cases one : first = a
  · subst one
    simp [apart.symm, caloWord]
  · by_cases two : second = a
    · subst two
      simp [one, caloWord]
    · simp [one, two, Ne.symm one, Ne.symm two]

theorem add_scints_front (hs : List (ScintCluster F)) (before points : List (FitPoint F)) :
    addScints (before ++ points) hs = (addScints points hs).map (Option.map (before ++ ·)) := by
  induction hs generalizing points with
  | nil => rfl
  | cons h hs ih =>
      have one : addScint (before ++ points) h = (addScint points h).map (Option.map (before ++ ·)) := by
        rw [addScint, addScint]
        split
        · rfl
        · split
          · rfl
          · cases (z_earm : List F)[h.fPlane.toNat]? with
            | none => rfl
            | some z => simp only [Option.map_some, List.append_assoc]
      rw [addScints, addScints, one]
      cases addScint points h with
      | none => rfl
      | some next =>
          cases next with
          | none => rfl
          | some next => exact ih next

theorem add_scints_longer (hs : List (ScintCluster F)) (points out : List (FitPoint F)) (added : addScints points hs = some (some out)) :
    points.length ≤ out.length := by
  induction hs generalizing points with
  | nil =>
      cases added
      exact Nat.le_refl _
  | cons h hs ih =>
      rw [addScints] at added
      cases one : addScint points h with
      | none =>
          rw [one] at added
          cases added
      | some next =>
          rw [one] at added
          cases next with
          | none => cases added
          | some next =>
              refine Nat.le_trans ?_ (ih next added)
              rw [addScint] at one
              split at one
              · cases one
              · split at one
                · cases one
                · cases found : (z_earm : List F)[h.fPlane.toNat]? with
                  | none =>
                      rw [found] at one
                      cases one
                  | some z =>
                      rw [found] at one
                      cases one
                      rw [List.length_append]
                      exact Nat.le_add_right _ _

theorem cluster_points_two (su : DecoderSetup F S) (fScintClusters : List (ScintCluster F)) (vz : F) (c : ECalCluster F)
    (points : List (FitPoint F)) (found : clusterPoints su fScintClusters vz c = some points) : 2 ≤ points.length := by
  obtain ⟨⟨xECal, yECal⟩, _, rest⟩ := Option.bind_eq_some_iff.mp found
  obtain ⟨hits, joined, same⟩ := Option.bind_eq_some_iff.mp rest
  cases same
  have longer := add_scints_longer fScintClusters _ hits (Option.join_eq_some_iff.mp joined)
  rw [List.length_append]
  exact Nat.add_le_add_right longer 1

-- Two points or more leave nothing of the track fitted before.
theorem fit_of_any_track (invert : (Fin 4 → Fin 4 → F) → Fin 4 → Fin 4 → F) (points : List (FitPoint F)) (two : 2 ≤ points.length)
    (track track' : FitLine F) : fitOf invert points track = fitOf invert points track' := by
  rw [fitOf, fitOf, fit3DTrack, fit3DTrack, List.length_map, if_neg (by omega), if_neg (by omega)]

omit [Libm F] in
theorem load_calo_ok (su : DecoderSetup F S) (d d' : DecodedEvent F S) (loads : List SlotData) (loaded : loadCalo su d loads = .ok d') :
    ∃ crateslot, d' = { d with crateslot := crateslot } ∧ loads.foldlM su.lib.load d.crateslot = .ok crateslot := by
  rw [loadCalo] at loaded
  split at loaded
  · cases loaded
  · rename_i crateslot taken
    cases loaded
    exact ⟨crateslot, rfl, taken⟩

theorem electron_cluster_ok (su : DecoderSetup F S) (fScintClusters : List (ScintCluster F)) (vz : F) (c : ECalCluster F)
    (d d' : DecodedEvent F S) (v v' : ElectronPoints F) (done : electronCluster su fScintClusters vz c (d, v) = .ok (d', v')) :
    ∃ (points : List (FitPoint F)) (t : ElectronTrack F) (crateslot : S), clusterPoints su fScintClusters vz c = some points ∧
      v' = ⟨v.points ++ points, t.line⟩ ∧
      fitOf su.invert (v.points ++ points) v.track = some t.line ∧ electronFocalPlane su vz t.line = some t.plane ∧
      d' = { d with crateslot := crateslot } ∧
      (caloLoads su focalChannels t.plane.xfp t.plane.yfp ++ caloLoads su secondChannels (t.plane.xfp + 0.48191 * t.plane.xpfp)
        (t.plane.yfp + 0.48191 * t.plane.ypfp)).foldlM su.lib.load d.crateslot = .ok crateslot := by
  simp only [electronCluster] at done
  split at done
  · cases done
  · rename_i xECal yECal shower
    have front := add_scints_front fScintClusters v.points [vertexPoint vz]
    rw [vertexPoint] at front
    simp only [front] at done
    cases added : addScints [vertexPoint vz] fScintClusters with
    | none =>
        rw [vertexPoint] at added
        rw [added] at done
        cases done
    | some hits =>
        have listed := added
        rw [vertexPoint] at added
        rw [added] at done
        cases hits with
        | none => cases done
        | some hits =>
            have points : clusterPoints su fScintClusters vz c = some (hits ++ [showerPoint xECal yECal]) := by
              rw [clusterPoints, shower, Option.bind_eq_bind, Option.bind_some, listed]
              rfl
            simp only [Option.map_some, List.append_assoc] at done
            cases fit : fitOf su.invert (v.points ++ (hits ++ [showerPoint xECal yECal])) v.track with
            | none =>
                rw [showerPoint] at fit
                rw [fit] at done
                cases done
            | some line =>
                have fitted := fit
                rw [showerPoint] at fit
                rw [fit] at done
                cases plane : electronFocalPlane su vz line with
                | none =>
                    simp only [plane] at done
                    cases done
                | some fp =>
                    simp only [plane] at done
                    obtain ⟨d1, first, rest⟩ := (except_bind_ok _ _ _).mp done
                    obtain ⟨d2, second, last⟩ := (except_bind_ok _ _ _).mp rest
                    cases last
                    obtain ⟨s1, rfl, taken⟩ := load_calo_ok su d d1 _ first
                    obtain ⟨s2, rfl, taken'⟩ := load_calo_ok su _ d' _ second
                    exact ⟨_, ⟨line, fp⟩, s2, points, rfl, fitted, plane, rfl, loads_append _ _ _ _ _ _ taken taken'⟩

-- Where the loop over the clusters stands after some of them.
structure CaloState (su : DecoderSetup F S) (fScintClusters : List (ScintCluster F)) (vz : F) (d0 : DecodedEvent F S)
    (past : List (ECalCluster F)) (groups : List (List (FitPoint F))) (tracks : List (ElectronTrack F)) (loads : List SlotData)
    (acc : DecodedEvent F S × ElectronPoints F) : Prop where
  fitted : ElectronTracks su fScintClusters vz (past.filter (isElectron su)) groups tracks
  points : acc.2.points = groups.flatten
  loaded : ∃ crateslot, acc.1 = { d0 with crateslot := crateslot } ∧ loads.foldlM su.lib.load d0.crateslot = .ok crateslot
  words : ∀ a, wordsAt loads a = caloWords su past tracks a

theorem electron_tracks_snoc (su : DecoderSetup F S) (fScintClusters : List (ScintCluster F)) (vz : F) (clusters : List (ECalCluster F))
    (groups : List (List (FitPoint F))) (tracks : List (ElectronTrack F))
    (so_far : ElectronTracks su fScintClusters vz clusters groups tracks)
    (c : ECalCluster F) (points : List (FitPoint F)) (t : ElectronTrack F) (found : clusterPoints su fScintClusters vz c = some points)
    (track : FitLine F) (fit : fitOf su.invert (groups.flatten ++ points) track = some t.line)
    (plane : electronFocalPlane su vz t.line = some t.plane) :
    ElectronTracks su fScintClusters vz (clusters ++ [c]) (groups ++ [points]) (tracks ++ [t]) := by
  have length := so_far.each.length_eq
  have count := so_far.count
  refine ⟨List.rel_append so_far.each (.cons found .nil), by simp [count], fun k u here => ?_⟩
  cases (get_append_singleton ..).mp here with
  | inl earlier =>
      have bound := (List.getElem?_eq_some_iff.mp earlier).1
      rw [List.take_append_of_le_length (by omega)]
      exact so_far.fitted k u earlier
  | inr last =>
      obtain ⟨rfl, rfl⟩ := last
      have two := cluster_points_two su fScintClusters vz c points found
      have whole : (groups ++ [points]).take (tracks.length + 1) = groups ++ [points] :=
        List.take_of_length_le (by simp; omega)
      rw [whole, List.flatten_append, List.flatten_singleton, fit_of_any_track _ _ (by rw [List.length_append]; omega) _ track]
      exact ⟨fit, plane⟩

theorem calo_words_other (su : DecoderSetup F S) (past : List (ECalCluster F)) (tracks : List (ElectronTrack F)) (c : ECalCluster F)
    (other : isHCal su c = false) (a : RocAddress) : caloWords su (past ++ [c]) tracks a = caloWords su past tracks a := by
  rw [caloWords, caloWords, List.filter_append, List.filter_singleton, other, cond_false, List.append_nil]

theorem calo_words_hcal (su : DecoderSetup F S) (past : List (ECalCluster F)) (tracks : List (ElectronTrack F)) (c : ECalCluster F)
    (counted : isHCal su c = true) (a : RocAddress) :
    caloWords su (past ++ [c]) tracks a = caloWords su past tracks a ++ wordsAt (caloLoads su hcalChannels c.fXPos c.fYPos) a := by
  rw [hcalChannels, calo_loads_at su _ _ (by decide), ← hcalChannels, caloWords, caloWords]
  by_cases here : a ∈ hcalChannels
  · simp only [if_pos here, List.filter_append, List.filter_singleton, counted, cond_true, List.map_append, List.map_cons, List.map_nil]
  · simp only [if_neg here, List.append_nil]

-- No channel is given by two of the three pairs.
theorem calo_words_electron (su : DecoderSetup F S) (past : List (ECalCluster F)) (tracks : List (ElectronTrack F)) (t : ElectronTrack F)
    (a : RocAddress) :
    caloWords su past (tracks ++ [t]) a = caloWords su past tracks a ++
      (wordsAt (caloLoads su focalChannels t.plane.xfp t.plane.yfp) a ++
        wordsAt (caloLoads su secondChannels (t.plane.xfp + 0.48191 * t.plane.xpfp) (t.plane.yfp + 0.48191 * t.plane.ypfp)) a) := by
  have apart : ∀ b ∈ hcalChannels, b ∉ focalChannels ∧ b ∉ secondChannels := by decide
  have apart' : ∀ b ∈ focalChannels, b ∉ secondChannels := by decide
  rw [focalChannels, secondChannels, calo_loads_at su _ _ (by decide), calo_loads_at su _ _ (by decide), ← focalChannels,
    ← secondChannels, caloWords, caloWords]
  by_cases first : a ∈ hcalChannels
  · simp only [if_pos first, if_neg (apart a first).1, if_neg (apart a first).2, List.append_nil]
  · by_cases focal : a ∈ focalChannels
    · simp only [if_neg first, if_pos focal, if_neg (apart' a focal), List.append_nil, List.map_append, List.map_cons, List.map_nil]
    · by_cases second : a ∈ secondChannels
      · simp only [if_neg first, if_neg focal, if_pos second, List.nil_append, List.map_append, List.map_cons, List.map_nil]
      · simp only [if_neg first, if_neg focal, if_neg second, List.append_nil]

theorem calo_cluster_state (su : DecoderSetup F S) (fScintClusters : List (ScintCluster F)) (vz : F) (d0 : DecodedEvent F S)
    (past : List (ECalCluster F)) (groups : List (List (FitPoint F))) (tracks : List (ElectronTrack F)) (loads : List SlotData)
    (acc acc' : DecodedEvent F S × ElectronPoints F) (c : ECalCluster F)
    (state : CaloState su fScintClusters vz d0 past groups tracks loads acc) (done : caloCluster su fScintClusters vz acc c = .ok acc') :
    ∃ groups tracks loads, CaloState su fScintClusters vz d0 (past ++ [c]) groups tracks loads acc' := by
  obtain ⟨d, v⟩ := acc
  obtain ⟨so_far, points, ⟨crateslot, same, taken⟩, words⟩ := state
  dsimp only at same points
  have snoc : (past ++ [c]).filter (isElectron su) = past.filter (isElectron su) ++ [c].filter (isElectron su) := List.filter_append ..
  rw [caloCluster] at done
  by_cases hcal : c.fDetFlag = 10 ∧ su.fCaloThr ≤ c.fEnergy
  · rw [if_pos hcal] at done
    have counted : isHCal su c = true := decide_eq_true hcal
    have no_electron : isElectron su c = false := decide_eq_false fun electron => absurd (hcal.1.symm.trans electron.1) (by decide)
    obtain ⟨d', loaded, last⟩ := (except_bind_ok _ _ _).mp done
    cases last
    obtain ⟨crateslot', rfl, taken'⟩ := load_calo_ok su d d' _ loaded
    rw [same] at taken'
    refine ⟨groups, tracks, loads ++ caloLoads su hcalChannels c.fXPos c.fYPos, ?_, points,
      ⟨crateslot', by rw [same], loads_append _ _ _ _ _ _ taken taken'⟩, fun a => ?_⟩
    · rw [snoc, List.filter_singleton, no_electron, cond_false, List.append_nil]
      exact so_far
    · rw [words_at_append, words, calo_words_hcal su past tracks c counted]
  · rw [if_neg hcal] at done
    have other : isHCal su c = false := decide_eq_false hcal
    by_cases electron : c.fDetFlag = 12 ∧ su.fCaloThr ≤ c.fEnergy
    · rw [if_pos electron] at done
      have counted : isElectron su c = true := decide_eq_true electron
      obtain ⟨d', v'⟩ := acc'
      obtain ⟨more, t, crateslot', found, rfl, fit, plane, rfl, taken'⟩ := electron_cluster_ok su fScintClusters vz c d d' v v' done
      rw [points] at fit
      rw [same] at taken'
      refine ⟨groups ++ [more], tracks ++ [t], _, ?_, ?_, ⟨crateslot', by rw [same], loads_append _ _ _ _ _ _ taken taken'⟩, fun a => ?_⟩
      · rw [snoc, List.filter_singleton, counted, cond_true]
        exact electron_tracks_snoc su fScintClusters vz _ groups tracks so_far c more t found v.track fit plane
      · rw [List.flatten_append, List.flatten_singleton, ← points]
      · rw [words_at_append, words_at_append, words, calo_words_other su past _ c other, calo_words_electron]
    · rw [if_neg electron] at done
      cases done
      have uncounted : isElectron su c = false := decide_eq_false electron
      refine ⟨groups, tracks, loads, ?_, points, ⟨crateslot, same, taken⟩, fun a => ?_⟩
      · rw [snoc, List.filter_singleton, uncounted, cond_false, List.append_nil]
        exact so_far
      · rw [calo_words_other su past tracks c other, words]

theorem calo_event_state (su : DecoderSetup F S) (simEvent : SimEvent F) (trk : SimTrack F) (d d' : DecodedEvent F S)
    (done : caloEvent su simEvent trk d = .ok d') :
    ∃ groups tracks loads crateslot,
      ElectronTracks su simEvent.fScintClusters (findVertexBin trk.vertex_target.z) (simEvent.fECalClusters.filter (isElectron su))
        groups tracks ∧
      d' = { d with crateslot := crateslot } ∧ loads.foldlM su.lib.load d.crateslot = .ok crateslot ∧
      ∀ a, wordsAt loads a = caloWords su simEvent.fECalClusters tracks a := by
  rw [caloEvent] at done
  cases ran : simEvent.fECalClusters.foldlM (caloCluster su simEvent.fScintClusters (findVertexBin trk.vertex_target.z))
      (d, (⟨[], ⟨0.0, 0.0, 0.0, 0.0⟩⟩ : ElectronPoints F)) with
  | error stop =>
      rw [ran] at done
      cases done
  | ok acc =>
      rw [ran] at done
      cases done
      have start : CaloState su simEvent.fScintClusters (findVertexBin trk.vertex_target.z) d [] [] [] []
          (d, (⟨[], ⟨0.0, 0.0, 0.0, 0.0⟩⟩ : ElectronPoints F)) :=
        ⟨⟨.nil, rfl, fun k t none => nomatch none⟩, rfl, ⟨d.crateslot, rfl, rfl⟩, fun a => by simp [wordsAt, entriesAt, caloWords]⟩
      obtain ⟨groups, tracks, loads, state⟩ := foldlM_ok_invariant _
        (fun past acc => ∃ groups tracks loads,
          CaloState su simEvent.fScintClusters (findVertexBin trk.vertex_target.z) d past groups tracks loads acc)
        [] simEvent.fECalClusters (fun past acc c acc' _ reached step => by
          obtain ⟨groups, tracks, loads, state⟩ := reached
          exact calo_cluster_state su _ _ d past groups tracks loads acc acc' c state step) _ _ ⟨[], [], [], start⟩ ran
      obtain ⟨crateslot, same, taken⟩ := state.loaded
      exact ⟨groups, tracks, loads, crateslot, state.fitted, same, taken, state.words⟩

theorem calo_channels_loaded (su : DecoderSetup F S) (keeps : su.lib.Keeps) (quiet : ∀ s l, ¬ su.lib.Warns s l)
    (fits : su.manager.fNChamber ≤ 32) (simEvent : SimEvent F) (d : DecodedEvent F S) (decoded : doLoadEvent su simEvent = .ok d)
    (emulated : su.fgDoCalo = true) (primary : ∃ c ∈ simEvent.fGEMClust, isPrimary c = true) :
    ∃ trk groups tracks, simEvent.fMCTracks.head? = some trk ∧
      ElectronTracks su simEvent.fScintClusters (findVertexBin trk.vertex_target.z) (simEvent.fECalClusters.filter (isElectron su))
        groups tracks ∧
      ∀ a, su.lib.channel d.crateslot a =
        wordsAt (eventLoads su simEvent.fGEMStrips) a ++ caloWords su simEvent.fECalClusters tracks a := by
  obtain ⟨stripped, trk, s, strips, tracked, tallied, finished⟩ := load_event_ok su fits simEvent d decoded
  obtain ⟨fMCPoints, fBackTracks, _, _, branch⟩ := finish_event_ok su simEvent trk s _ d finished
  have best : 0 ≤ s.best_primary := by
    rcases tallied.best with ⟨none_primary, _⟩ | ⟨i, _, _, index, _⟩
    · obtain ⟨c, member, yes⟩ := primary
      rw [none_primary c member] at yes
      cases yes
    · omega
  rw [if_pos ⟨best, emulated⟩] at branch
  obtain ⟨groups, tracks, loads, crateslot, fitted, rfl, taken, words⟩ := calo_event_state su simEvent trk _ d branch
  have ran := add_strips_cases su simEvent.fGEMStrips 0 (DecodedEvent.cleared su simEvent)
  rw [strips] at ran
  obtain ⟨slots, fStripMap, rfl, _, loaded⟩ := ran
  refine ⟨trk, groups, tracks, tracked, fitted, fun a => ?_⟩
  obtain ⟨kept, _, read, whole⟩ := loads_read_back (crate_slots_appending su.lib keeps) _ _ _ (loads_append _ _ _ _ _ _ loaded taken) a
  have all := words_at_append (eventLoads su simEvent.fGEMStrips) loads a
  rw [wordsAt, words] at all
  rw [read, whole fun s l _ => quiet s l]
  exact (congrArg (· ++ _) (keeps.cleared a)).trans all

end

section
variable {S : Type}

def Weighted (p : FitPoint ℝ) : Prop := 0 < p.wx ∧ 0 < p.wy

theorem add_scints_weighted (hs : List (ScintCluster ℝ)) (points out : List (FitPoint ℝ)) (weighted : ∀ p ∈ points, Weighted p)
    (added : addScints points hs = some (some out)) : ∀ p ∈ out, Weighted p := by
  induction hs generalizing points with
  | nil =>
      cases added
      exact weighted
  | cons h hs ih =>
      rw [addScints] at added
      cases one : addScint points h with
      | none =>
          rw [one] at added
          cases added
      | some next =>
          rw [one] at added
          cases next with
          | none => cases added
          | some next =>
              refine ih next ?_ added
              rw [addScint] at one
              split at one
              · cases one
              · split at one
                · cases one
                · cases found : (z_earm : List ℝ)[h.fPlane.toNat]? with
                  | none =>
                      rw [found] at one
                      cases one
                  | some z =>
                      rw [found] at one
                      cases one
                      intro p member
                      cases List.mem_append.mp member with
                      | inl earlier => exact weighted p earlier
                      | inr last =>
                          rw [List.mem_singleton.mp last]
                          exact ⟨Real.rpow_pos_of_pos (by norm_num [Lx_scint_CDET]) _, Real.rpow_pos_of_pos (by norm_num [sigy_CDET]) _⟩

-- The points of a cluster hold the vertex and the shower.
theorem cluster_points_fittable (su : DecoderSetup ℝ S) (fScintClusters : List (ScintCluster ℝ)) (vz : ℝ) (c : ECalCluster ℝ)
    (points : List (FitPoint ℝ)) (found : clusterPoints su fScintClusters vz c = some points) :
    (∀ p ∈ points, Weighted p) ∧ vertexPoint vz ∈ points ∧ ∃ p ∈ points, p.z = 4.5 := by
  obtain ⟨⟨xECal, yECal⟩, _, rest⟩ := Option.bind_eq_some_iff.mp found
  obtain ⟨hits, joined, same⟩ := Option.bind_eq_some_iff.mp rest
  cases same
  have added := Option.join_eq_some_iff.mp joined
  have vertex : Weighted (vertexPoint vz) := ⟨Real.rpow_pos_of_pos (by norm_num) _, Real.rpow_pos_of_pos (by norm_num) _⟩
  have front := add_scints_front fScintClusters [vertexPoint vz] []
  rw [List.append_nil, added] at front
  refine ⟨fun p member => ?_, List.mem_append_left _ ?_, showerPoint xECal yECal, List.mem_append_right _ List.mem_cons_self, rfl⟩
  · cases List.mem_append.mp member with
    | inl hit => exact add_scints_weighted fScintClusters _ hits (List.forall_mem_singleton.mpr vertex) added p hit
    | inr last =>
        rw [List.mem_singleton.mp last]
        exact ⟨Real.rpow_pos_of_pos (by norm_num [sigx_ECAL]) _, Real.rpow_pos_of_pos (by norm_num [sigy_ECAL]) _⟩
  · obtain ⟨inner, _, some_inner⟩ := Option.map_eq_some_iff.mp front.symm
    obtain ⟨later, _, listed⟩ := Option.map_eq_some_iff.mp some_inner
    rw [← listed]
    exact List.mem_cons_self

theorem electron_tracks_least (su : DecoderSetup ℝ S) (exact : ExactInverse su.invert) (fScintClusters : List (ScintCluster ℝ)) (vz : ℝ)
    (clusters : List (ECalCluster ℝ)) (groups : List (List (FitPoint ℝ))) (tracks : List (ElectronTrack ℝ))
    (all : ElectronTracks su fScintClusters vz clusters groups tracks) (apart : (vertexPoint vz).z ≠ 4.5) (k : Nat)
    (t : ElectronTrack ℝ) (here : tracks[k]? = some t) (other : FitLine ℝ) :
    chi2 (groups.take (k + 1)).flatten t.line ≤ chi2 (groups.take (k + 1)).flatten other ∧
      (chi2 (groups.take (k + 1)).flatten other ≤ chi2 (groups.take (k + 1)).flatten t.line → other = t.line) := by
  have each (points : List (FitPoint ℝ)) (member : points ∈ groups) : (∀ p ∈ points, Weighted p) ∧ vertexPoint vz ∈ points ∧
      ∃ p ∈ points, p.z = 4.5 := by
    obtain ⟨n, inside, rfl⟩ := List.mem_iff_getElem.mp member
    have matching := all.each.length_eq ▸ inside
    exact cluster_points_fittable su fScintClusters vz _ _ (all.each.get matching inside)
  have bound := (List.getElem?_eq_some_iff.mp here).1
  have length := all.each.length_eq
  have count := all.count
  have fittable : Fittable (groups.take (k + 1)).flatten := by
    constructor
    · intro p member
      obtain ⟨points, listed, inside⟩ := List.mem_flatten.mp member
      exact (each points (List.mem_of_mem_take listed)).1 p inside
    · cases groups with
      | nil =>
          rw [List.length_nil] at length
          omega
      | cons points rest =>
          obtain ⟨_, vertex, p, shower, z⟩ := each points List.mem_cons_self
          have first {q : FitPoint ℝ} (inside : q ∈ points) : q ∈ ((points :: rest).take (k + 1)).flatten := by
            rw [List.take_succ_cons, List.flatten_cons]
            exact List.mem_append_left _ inside
          exact ⟨_, first vertex, p, first shower, by rw [z]; exact apart⟩
  obtain ⟨line, returned, fitted⟩ := fit_returns su.invert exact fittable ⟨0.0, 0.0, 0.0, 0.0⟩
  have same : line = t.line := Option.some.inj (returned.symm.trans (all.fitted k t here).1)
  rw [← same]
  exact ⟨fitted_least fittable line fitted other, fitted_unique fittable line fitted other⟩

-- The channels of an event decoded with the calorimeters hold what the strips
-- loaded, then what the clusters above the threshold give. The points of the
-- electron are never cleared, so each track is the best line through those of
-- its cluster and of all clusters before it.
theorem calo_channels_words (su : DecoderSetup ℝ S) (keeps : su.lib.Keeps) (quiet : ∀ s l, ¬ su.lib.Warns s l)
    (exact : ExactInverse su.invert) (fits : su.manager.fNChamber ≤ 32) (simEvent : SimEvent ℝ) (d : DecodedEvent ℝ S)
    (decoded : doLoadEvent su simEvent = .ok d) (emulated : su.fgDoCalo = true) (primary : ∃ c ∈ simEvent.fGEMClust, isPrimary c = true) :
    ∃ trk groups tracks, simEvent.fMCTracks.head? = some trk ∧
      ElectronTracks su simEvent.fScintClusters (findVertexBin trk.vertex_target.z) (simEvent.fECalClusters.filter (isElectron su))
        groups tracks ∧
      ((vertexPoint (findVertexBin trk.vertex_target.z)).z ≠ 4.5 → ∀ (k : Nat) (t : ElectronTrack ℝ), tracks[k]? = some t → ∀ other,
        chi2 (groups.take (k + 1)).flatten t.line ≤ chi2 (groups.take (k + 1)).flatten other ∧
          (chi2 (groups.take (k + 1)).flatten other ≤ chi2 (groups.take (k + 1)).flatten t.line → other = t.line)) ∧
      ∀ a, su.lib.channel d.crateslot a =
        wordsAt (eventLoads su simEvent.fGEMStrips) a ++ caloWords su simEvent.fECalClusters tracks a := by
  obtain ⟨trk, groups, tracks, tracked, all, words⟩ := calo_channels_loaded su keeps quiet fits simEvent d decoded emulated primary
  exact ⟨trk, groups, tracks, tracked, all, electron_tracks_least su exact _ _ _ groups tracks all, words⟩

end

noncomputable def caloSetup (m : DBManager ℝ) : DecoderSetup ℝ (List SlotData) := { plainSetup m with fgDoCalo := true }

noncomputable def hcalEvent : SimEvent ℝ := { twoPlaneEvent with fECalClusters := [⟨1, 0, 0, 0, 0, 0, 10⟩] }

theorem hcal_event_decodes (m : DBManager ℝ) (loaded : DBManager.loadGeneralInfo ⟨5, 2, [3, 2], 128, 1⟩ = some m) :
    ∃ d, doLoadEvent (caloSetup m) hcalEvent = .ok d := by
  obtain ⟨_, _, chambers⟩ := DBManager.load_general_info_fields _ m loaded
  obtain ⟨unique, present, distinct⟩ := two_plane_placed m loaded
  have outcome := event_settles (caloSetup m) hcalEvent ⟨unique, present, distinct⟩ stored_slots_keep point_sort_sorts
    (chambers.trans_le (by decide)) (List.cons_ne_nil _ _)
  cases ran : doLoadEvent (caloSetup m) hcalEvent with
  | ok d => exact ⟨d, rfl⟩
  | error stop =>
      rw [ran] at outcome
      cases stop with
      | hedErr d =>
          rcases outcome with ⟨crateslot, failed⟩ | ⟨_, soft⟩ | ⟨_, ⟨s, l, refused⟩ | ⟨h, member, _⟩⟩
          · cases failed.symm.trans (stored_slots_take _ _)
          · have threshold : |(1 : ℝ)| < 0 := soft
            exact absurd (abs_nonneg (1 : ℝ)) (not_le.mpr threshold)
          · cases refused
          · cases member
      | hedFatal d =>
          obtain ⟨c, member, illegal⟩ := outcome
          have five : (caloSetup m).manager.fNChamber = 5 := chambers
          have plane := two_plane_hits c member
          omega
      | undefined =>
          obtain ⟨_, c, member, electron, _⟩ := outcome
          rw [List.mem_singleton.mp member] at electron
          cases electron

theorem calo_channels_words_hcal :
    ∃ m : DBManager ℝ, DBManager.loadGeneralInfo ⟨5, 2, [3, 2], 128, 1⟩ = some m ∧
      ∃ d tracks, doLoadEvent (caloSetup m) hcalEvent = .ok d ∧
        ∀ a, (caloSetup m).lib.channel d.crateslot a =
          wordsAt (eventLoads (caloSetup m) hcalEvent.fGEMStrips) a ++ caloWords (caloSetup m) hcalEvent.fECalClusters tracks a := by
  obtain ⟨m, loaded⟩ : ∃ m : DBManager ℝ, DBManager.loadGeneralInfo ⟨5, 2, [3, 2], 128, 1⟩ = some m := ⟨_, rfl⟩
  obtain ⟨d, decoded⟩ := hcal_event_decodes m loaded
  obtain ⟨_, _, chambers⟩ := DBManager.load_general_info_fields _ m loaded
  obtain ⟨_, _, tracks, _, _, _, words⟩ := calo_channels_words (caloSetup m) stored_slots_keep (fun _ _ warned => nomatch warned)
    (fun A regular => Matrix.nonsing_inv_mul A (isUnit_iff_ne_zero.mpr regular)) (chambers.trans_le (by decide)) hcalEvent d decoded rfl
    ⟨contributor 2 0 6.0 3.0, List.mem_cons_of_mem _ List.mem_cons_self, by decide⟩
  exact ⟨m, loaded, d, tracks, decoded, words⟩

end Solgem
