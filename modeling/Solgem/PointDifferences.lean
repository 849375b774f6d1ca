import Solgem.DecodedEvents

set_option autoImplicit false

namespace Solgem

open Lib

section
variable {F S : Type}

-- The order of the points of one track, plane by plane.
def MCTrackPoint.Before (a b : MCTrackPoint F) : Prop := a.fType < b.fType ∨ a.fType = b.fType ∧ a.fPlane < b.fPlane

theorem before_asymm (a b : MCTrackPoint F) (before : a.Before b) : ¬ b.Before a := by
  rw [MCTrackPoint.Before] at before ⊢
  omega

-- Between the points of two planes in a row there is no other.
theorem before_covers (a x b : MCTrackPoint F) (type : a.fType = b.fType) (plane : a.fPlane + 1 = b.fPlane) (after : a.Before x) :
    ¬ x.Before b := by
  rw [MCTrackPoint.Before] at after ⊢
  omega

theorem track_points_distinct (itrack : Int) (cs : List (GEMCluster F)) (distinct : (cs.map GEMCluster.fPlane).Nodup) :
    ((cs.flatMap (trackPoints itrack)).map (fun pt => (pt.fType, pt.fPlane))).Nodup := by
  induction cs with
  | nil => exact List.nodup_nil
  | cons c cs ih =>
      rw [List.map_cons, List.nodup_cons] at distinct
      rw [List.flatMap_cons, List.map_append, List.nodup_append]
      refine ⟨by simp [trackPoints, kXPlane, kYPlane], ih distinct.2, ?_⟩
      intro key first key' later same
      obtain ⟨pt, member, rfl⟩ := List.mem_map.mp first
      obtain ⟨pt', member', rfl⟩ := List.mem_map.mp later
      obtain ⟨c', listed, point⟩ := List.mem_flatMap.mp member'
      have plane : ∀ (c : GEMCluster F) (pt : MCTrackPoint F), pt ∈ trackPoints itrack c → pt.fPlane = c.fPlane := by
        intro c pt point
        simp only [trackPoints, List.mem_cons, List.not_mem_nil, or_false] at point
        rcases point with rfl | rfl <;> rfl
      have equal : c.fPlane = c'.fPlane := by
        rw [← plane c pt member, ← plane c' pt' point]
        exact congrArg Prod.snd same
      exact distinct.1 (equal ▸ List.mem_map_of_mem listed)

theorem sorted_points_before (sort : List (MCTrackPoint F) → List (MCTrackPoint F)) (sorts : Sorts sort) (pts : List (MCTrackPoint F))
    (distinct : (pts.map (fun pt => (pt.fType, pt.fPlane))).Nodup) : (sort pts).Pairwise MCTrackPoint.Before := by
  have keys : ((sort pts).map (fun pt => (pt.fType, pt.fPlane))).Nodup := ((sorts.perm pts).map _).nodup_iff.mpr distinct
  have apart : (sort pts).Pairwise (fun a b => (a.fType, a.fPlane) ≠ (b.fType, b.fPlane)) := List.pairwise_map.mp keys
  refine ((sorts.ordered pts).and apart).imp fun {a b} both => ?_
  obtain ⟨ordered, differ⟩ := both
  rw [MCTrackPoint.Before]
  rcases ordered with type | ⟨type, plane⟩
  · exact .inl type
  · have other : a.fPlane ≠ b.fPlane := fun same => differ (by rw [type, same])
    omega

end

section
variable {F S : Type} [Libm F]

@[simp] theorem point_difference_point (mass : F) (prev : Option (MCTrackPoint F)) (pt : MCTrackPoint F) :
    (pointDifference mass prev pt).toMCTrackPoint = pt := by
  cases prev with
  | none => rfl
  | some prev =>
      rw [pointDifference]
      split <;> rfl

theorem point_difference_apart (mass : F) (prev : Option (MCTrackPoint F)) (pt : MCTrackPoint F)
    (apart : ∀ q, prev = some q → ¬ (q.fType = pt.fType ∧ q.fPlane + 1 = pt.fPlane)) : pointDifference mass prev pt = plainPoint pt := by
  cases prev with
  | none => rfl
  | some prev => exact if_neg (apart prev rfl)

-- Every point is compared with the one before it.
theorem point_differences_entry (mass : F) (pts : List (MCTrackPoint F)) (prev : Option (MCTrackPoint F)) (out : List (TrackPoint F))
    (compared : pointDifferences mass prev pts = some out) (n : Nat) (point : TrackPoint F) (here : out[n]? = some point) :
    ∃ pt, pts[n]? = some pt ∧ point = pointDifference mass (if n = 0 then prev else pts[n - 1]?) pt := by
  induction pts generalizing prev out n with
  | nil =>
      cases compared
      cases here
  | cons pt pts ih =>
      rw [pointDifferences] at compared
      split at compared
      · obtain ⟨out', later, rfl⟩ := Option.map_eq_some_iff.mp compared
        cases n with
        | zero =>
            cases here
            exact ⟨pt, rfl, rfl⟩
        | succ n =>
            obtain ⟨pt', entry, difference⟩ := ih (some pt) out' later n here
            refine ⟨pt', entry, difference.trans ?_⟩
            cases n <;> rfl
      · cases compared

-- What is recorded of a primary track between two planes.
structure Between (mass : F) (c : GEMCluster F) (pt : TrackPoint F) : Prop where
  fDeltaE : pt.fDeltaE = some (Arith.sqrt (c.fP.dot c.fP + mass * mass) - Arith.sqrt (pt.fMCP.dot pt.fMCP + mass * mass))
  fDeflect : pt.fDeflect = some (c.fP.angle pt.fMCP)
  fToF : pt.fToF = some (pt.fMCTime - c.fTime)

omit [Libm F] in
theorem primary_point (itrack : Int) (cs : List (GEMCluster F)) (c : GEMCluster F) (member : c ∈ cs) (type : Int)
    (projection : type = kXPlane ∨ type = kYPlane) :
    ∃ pt ∈ cs.flatMap (trackPoints itrack), pt.fType = type ∧ pt.fPlane = c.fPlane ∧ pt.fMCP = c.fP ∧ pt.fMCTime = c.fTime := by
  rcases projection with rfl | rfl
  · exact ⟨_, List.mem_flatMap.mpr ⟨c, member, List.mem_cons_self⟩, rfl, rfl, rfl, rfl⟩
  · exact ⟨_, List.mem_flatMap.mpr ⟨c, member, List.mem_cons_of_mem _ List.mem_cons_self⟩, rfl, rfl, rfl, rfl⟩

omit [Libm F] in
theorem point_primary (itrack : Int) (cs : List (GEMCluster F)) (pt : MCTrackPoint F) (member : pt ∈ cs.flatMap (trackPoints itrack)) :
    (pt.fType = kXPlane ∨ pt.fType = kYPlane) ∧ ∃ c ∈ cs, pt.fPlane = c.fPlane ∧ pt.fMCP = c.fP ∧ pt.fMCTime = c.fTime := by
  obtain ⟨c, listed, point⟩ := List.mem_flatMap.mp member
  simp only [trackPoints, List.mem_cons, List.not_mem_nil, or_false] at point
  rcases point with rfl | rfl
  · exact ⟨.inl rfl, c, listed, rfl, rfl, rfl⟩
  · exact ⟨.inr rfl, c, listed, rfl, rfl, rfl⟩

omit [Libm F] in
theorem calo_loads_points (su : DecoderSetup F S) (d d' : DecodedEvent F S) (loads : CaloLoads su d d') : d'.fMCPoints = d.fMCPoints := by
  obtain ⟨_, _, rfl, _, _⟩ := loads
  rfl

-- The points DoLoadEvent leaves are those of the clusters, compared in order.
theorem load_event_points (su : DecoderSetup F S) (fits : su.manager.fNChamber ≤ 32) (simEvent : SimEvent F) (d : DecodedEvent F S)
    (decoded : doLoadEvent su simEvent = .ok d) :
    ∃ trk pts, simEvent.fMCTracks.head? = some trk ∧ pts = (simEvent.fGEMClust.filter isPrimary).flatMap (trackPoints trk.fNumber) ∧
      pointDifferences ((su.mass trk.fPID).getD 0.0) none (su.sort pts) = some d.fMCPoints := by
  obtain ⟨stripped, trk, s, _, tracked, tallied, finished⟩ := load_event_ok su fits simEvent d decoded
  obtain ⟨fMCPoints, fBackTracks, differences, _, branch⟩ := finish_event_ok su simEvent trk s _ d finished
  refine ⟨trk, s.fMCPoints, tracked, tallied.points, ?_⟩
  split at branch
  · have settled := calo_event_settles su simEvent trk
      (DecodedEvent.tracked { stripped with fMCTracks := simEvent.fMCTracks } s fMCPoints fBackTracks)
    rw [branch] at settled
    rw [calo_loads_points su _ _ settled]
    exact differences
  · cases branch
    exact differences

theorem point_differences_points (mass : F) (pts : List (MCTrackPoint F)) (prev : Option (MCTrackPoint F)) (out : List (TrackPoint F))
    (compared : pointDifferences mass prev pts = some out) : out.map TrackPoint.toMCTrackPoint = pts := by
  induction pts generalizing prev out with
  | nil =>
      cases compared
      rfl
  | cons pt pts ih =>
      rw [pointDifferences] at compared
      split at compared
      · obtain ⟨out', later, rfl⟩ := Option.map_eq_some_iff.mp compared
        rw [List.map_cons, ih (some pt) out' later, point_difference_point]
      · cases compared

-- A primary track that crosses each plane once has its losses recorded at
-- every plane behind another it crosses, from that plane on, and nowhere else.
theorem point_differences_planes (su : DecoderSetup F S) (sorts : Sorts su.sort) (fits : su.manager.fNChamber ≤ 32)
    (simEvent : SimEvent F) (d : DecodedEvent F S) (decoded : doLoadEvent su simEvent = .ok d)
    (once : ((simEvent.fGEMClust.filter isPrimary).map GEMCluster.fPlane).Nodup) :
    ∃ trk, simEvent.fMCTracks.head? = some trk ∧
      (d.fMCPoints.map TrackPoint.toMCTrackPoint).Perm ((simEvent.fGEMClust.filter isPrimary).flatMap (trackPoints trk.fNumber)) ∧
      ∀ point ∈ d.fMCPoints,
        (∃ c ∈ simEvent.fGEMClust, isPrimary c = true ∧ c.fPlane + 1 = point.fPlane ∧
            Between ((su.mass trk.fPID).getD 0.0) c point) ∨
          (∀ c ∈ simEvent.fGEMClust, isPrimary c = true → c.fPlane + 1 ≠ point.fPlane) ∧ point = plainPoint point.toMCTrackPoint := by
  obtain ⟨trk, pts, tracked, points, differences⟩ := load_event_points su fits simEvent d decoded
  have shown := point_differences_points _ _ _ _ differences
  refine ⟨trk, tracked, by rw [shown, ← points]; exact sorts.perm pts, fun point member => ?_⟩
  obtain ⟨n, here⟩ := List.mem_iff_getElem?.mp member
  obtain ⟨pt, entry, difference⟩ := point_differences_entry _ _ _ _ differences n point here
  have distinct := track_points_distinct trk.fNumber _ once
  rw [← points] at distinct
  have sorted := sorted_points_before su.sort sorts pts distinct
  have listed (pt : MCTrackPoint F) : pt ∈ su.sort pts ↔
      pt ∈ (simEvent.fGEMClust.filter isPrimary).flatMap (trackPoints trk.fNumber) := by
    rw [(sorts.perm pts).mem_iff, points]
  obtain ⟨type, _⟩ := point_primary _ _ _ ((listed pt).mp (List.mem_of_getElem? entry))
  have same : point.toMCTrackPoint = pt := by rw [difference, point_difference_point]
  by_cases crossed : ∃ c ∈ simEvent.fGEMClust.filter isPrimary, c.fPlane + 1 = pt.fPlane
  · obtain ⟨c, primary, plane⟩ := crossed
    obtain ⟨q, found, typeq, planeq, momentum, time⟩ := primary_point trk.fNumber _ c primary pt.fType type
    obtain ⟨m, before⟩ := List.mem_iff_getElem?.mp ((listed q).mpr found)
    have next : n = m + 1 := by
      refine pairwise_neighbours MCTrackPoint.Before before_asymm _ sorted m n q pt before entry (.inr ⟨typeq, by omega⟩) ?_
      exact fun x _ after => before_covers q x pt typeq (by omega) after
    have follows : q.fType = pt.fType ∧ q.fPlane + 1 = pt.fPlane := ⟨typeq, by omega⟩
    rw [next, if_neg (Nat.succ_ne_zero m), Nat.add_sub_cancel, before, pointDifference] at difference
    simp only [if_pos follows] at difference
    obtain ⟨clustered, passes⟩ := List.mem_filter.mp primary
    refine .inl ⟨c, clustered, passes, by rw [same]; exact plane, ?_⟩
    rw [difference]
    exact ⟨by simp only [MCTrackPoint.energy, momentum], by simp only [momentum], by simp only [time]⟩
  · refine .inr ⟨fun c member primary plane => crossed ⟨c, List.mem_filter.mpr ⟨member, primary⟩, by rw [← same]; exact plane⟩, ?_⟩
    rw [same, difference]
    refine point_difference_apart _ _ _ fun q earlier follows => ?_
    have before : q ∈ su.sort pts := by
      split at earlier
      · cases earlier
      · exact List.mem_of_getElem? earlier
    obtain ⟨_, c, primary, plane, _⟩ := point_primary _ _ _ ((listed q).mp before)
    exact crossed ⟨c, primary, by omega⟩

end

theorem two_plane_event_decodes (m : DBManager ℝ) (loaded : DBManager.loadGeneralInfo ⟨5, 2, [3, 2], 128, 1⟩ = some m) :
    ∃ d, doLoadEvent (plainSetup m) twoPlaneEvent = .ok d := by
  obtain ⟨_, _, chambers⟩ := DBManager.load_general_info_fields _ m loaded
  have outcome := event_settles (plainSetup m) twoPlaneEvent (two_plane_placed m loaded) stored_slots_keep point_sort_sorts
    (chambers.trans_le (by decide)) (List.cons_ne_nil _ _)
  cases ran : doLoadEvent (plainSetup m) twoPlaneEvent with
  | ok d => exact ⟨d, rfl⟩
  | error stop =>
      rw [ran] at outcome
      cases stop with
      | hedErr d =>
          rcases outcome with ⟨crateslot, failed⟩ | soft | calo
          · cases failed.symm.trans (stored_slots_take _ _)
          · exact absurd soft.1 Bool.false_ne_true
          · exact absurd calo.1 Bool.false_ne_true
      | hedFatal d =>
          obtain ⟨c, member, illegal⟩ := outcome
          have five : (plainSetup m).manager.fNChamber = 5 := chambers
          have plane := two_plane_hits c member
          omega
      | undefined => exact absurd outcome.1 Bool.false_ne_true

theorem point_differences_planes_two :
    ∃ m : DBManager ℝ, DBManager.loadGeneralInfo ⟨5, 2, [3, 2], 128, 1⟩ = some m ∧
      ∃ d, doLoadEvent (plainSetup m) twoPlaneEvent = .ok d ∧
        ∀ point ∈ d.fMCPoints, point.fPlane = 1 → Between 0.0 (contributor 2 0 6.0 3.0) point := by
  obtain ⟨m, loaded⟩ : ∃ m : DBManager ℝ, DBManager.loadGeneralInfo ⟨5, 2, [3, 2], 128, 1⟩ = some m := ⟨_, rfl⟩
  obtain ⟨d, decoded⟩ := two_plane_event_decodes m loaded
  obtain ⟨_, _, chambers⟩ := DBManager.load_general_info_fields _ m loaded
  obtain ⟨trk, _, _, recorded⟩ := point_differences_planes (plainSetup m) point_sort_sorts (chambers.trans_le (by decide))
    twoPlaneEvent d decoded (by decide)
  refine ⟨m, loaded, d, decoded, fun point member plane => ?_⟩
  rcases recorded point member with ⟨c, listed, _, behind, between⟩ | ⟨none_before, _⟩
  · rcases List.mem_cons.mp listed with rfl | rest
    · exact absurd (behind.trans plane) (by decide)
    · exact List.mem_singleton.mp rest ▸ between
  · exact absurd plane.symm (none_before (contributor 2 0 6.0 3.0) (List.mem_cons_of_mem _ List.mem_cons_self) rfl)

end Solgem
