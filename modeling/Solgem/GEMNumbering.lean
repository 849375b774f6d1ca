import Solgem.DBManager
import Solgem.Lib.Listing

set_option autoImplicit false

namespace Solgem

open Lib

variable {F : Type}

def GeneralInfo.modulesBefore (info : GeneralInfo) (i : Nat) : Nat := ((info.nmodule.take i).map Int.toNat).sum

namespace DBManager

-- LoadGeneralInfo numbers the modules: every number below nGEMtot stands for
-- one module, and the maps from it lead back to that module.
structure Numbered (m : DBManager F) (nGEMtot : Int) : Prop where
  nonneg : 0 ≤ nGEMtot
  back : ∀ i j g, m.fmPMtoIgem i j = some g →
    (0 ≤ g ∧ g < nGEMtot) ∧ m.fmIgemtoPlane g = some i ∧ m.fmIgemtoModule g = some j

theorem numbered_fresh (info : GeneralInfo) : Numbered (fresh info : DBManager F) 0 :=
  ⟨Int.le_refl 0, fun _ _ _ found => by cases found⟩

theorem load_module_numbered (i : Int) (acc : DBManager F × Int) (j : Nat) (numbered : Numbered acc.1 acc.2) :
    Numbered (loadModule i acc j).1 (loadModule i acc j).2 := by
  obtain ⟨m, nGEMtot⟩ := acc
  have low : 0 ≤ nGEMtot := numbered.nonneg
  refine ⟨Int.add_nonneg low Int.one_nonneg, fun i' j' g found => ?_⟩
  by_cases here : i' = i ∧ j' = j
  · obtain ⟨rfl, rfl⟩ := here
    have last : nGEMtot = g := by simpa [loadModule] using found
    subst last
    exact ⟨⟨low, Int.lt_succ nGEMtot⟩, by simp [loadModule], by simp [loadModule]⟩
  · have before : m.fmPMtoIgem i' j' = some g := by
      by_cases plane : i' = i
      · have other : j' ≠ j := fun same => here ⟨plane, same⟩
        simpa [loadModule, plane, other] using found
      · simpa [loadModule, plane] using found
    obtain ⟨⟨low, high⟩, planeID, moduleID⟩ := numbered.back i' j' g before
    have other : g ≠ nGEMtot := Int.ne_of_lt high
    exact ⟨⟨low, Int.lt_trans high (Int.lt_succ nGEMtot)⟩, by simpa [loadModule, other] using planeID,
      by simpa [loadModule, other] using moduleID⟩

theorem load_modules_numbered (i : Int) (js : List Nat) (acc : DBManager F × Int) (numbered : Numbered acc.1 acc.2) :
    Numbered (js.foldl (loadModule i) acc).1 (js.foldl (loadModule i) acc).2 := by
  induction js generalizing acc with
  | nil => exact numbered
  | cons j rest ih => exact ih (loadModule i acc j) (load_module_numbered i acc j numbered)

theorem load_planes_numbered (planes : List (Int × Nat)) (acc : DBManager F × Int) (numbered : Numbered acc.1 acc.2) :
    Numbered (planes.foldl loadPlane acc).1 (planes.foldl loadPlane acc).2 := by
  induction planes generalizing acc with
  | nil => exact numbered
  | cons plane rest ih =>
      apply ih
      exact load_modules_numbered plane.2 _ _ ⟨numbered.nonneg, numbered.back⟩

theorem load_modules_number (i : Int) (n : Nat) (acc : DBManager F × Int) :
    ((List.range n).foldl (loadModule i) acc).2 = acc.2 + n ∧
      ∀ i' j', ((List.range n).foldl (loadModule i) acc).1.fmPMtoIgem i' j' =
        if i' = i ∧ 0 ≤ j' ∧ j' < n then some (acc.2 + j') else acc.1.fmPMtoIgem i' j' := by
  induction n with
  | zero =>
      refine ⟨by simp, fun i' j' => ?_⟩
      rw [if_neg (by omega)]
      rfl
  | succ n ih =>
      obtain ⟨count, entries⟩ := ih
      rw [List.range_succ, List.foldl_append, List.foldl_cons, List.foldl_nil]
      refine ⟨by rw [loadModule, count]; push_cast; ring, fun i' j' => ?_⟩
      by_cases last : i' = i ∧ j' = n
      · obtain ⟨rfl, rfl⟩ := last
        rw [if_pos (by omega)]
        simp [loadModule, count]
      · have kept : (loadModule i ((List.range n).foldl (loadModule i) acc) n).1.fmPMtoIgem i' j' =
            ((List.range n).foldl (loadModule i) acc).1.fmPMtoIgem i' j' := by
          by_cases plane : i' = i
          · have other : j' ≠ n := fun same => last ⟨plane, same⟩
            simp [loadModule, plane, other]
          · simp [loadModule, plane]
        rw [kept, entries]
        by_cases before : i' = i ∧ 0 ≤ j' ∧ j' < n
        · rw [if_pos before, if_pos (by omega)]
        · rw [if_neg before, if_neg (by omega)]

theorem load_planes_number (counts : List Int) (start : Nat) (acc : DBManager F × Int) :
    (((counts.zipIdx start).foldl loadPlane acc).2 = acc.2 + (counts.map Int.toNat).sum) ∧
      (∀ i j : Int, i < start → ((counts.zipIdx start).foldl loadPlane acc).1.fmPMtoIgem i j = acc.1.fmPMtoIgem i j) ∧
      ∀ (k : Nat) (count j : Int), counts[k]? = some count → 0 ≤ j → j < count →
        ((counts.zipIdx start).foldl loadPlane acc).1.fmPMtoIgem (start + k) j =
          some (acc.2 + ((counts.take k).map Int.toNat).sum + j) := by
  induction counts generalizing start acc with
  | nil => exact ⟨by simp, fun _ _ _ => rfl, fun _ _ _ found => by cases found⟩
  | cons first rest ih =>
      rw [List.zipIdx_cons, List.foldl_cons]
      obtain ⟨total, before, entries⟩ := ih (start + 1) (loadPlane acc (first, start))
      obtain ⟨count, written⟩ := load_modules_number start first.toNat
        ({ acc.1 with
            fNModule := acc.1.fNModule ++ [first]
            fPMGeoInfo := Function.update acc.1.fPMGeoInfo start (some []) }, acc.2)
      have counted : (loadPlane acc (first, start)).2 = acc.2 + first.toNat := count
      refine ⟨?_, fun i j below => ?_, fun k n j found low high => ?_⟩
      · rw [total, counted, List.map_cons, List.sum_cons]
        push_cast
        ring
      · rw [before i j (by omega)]
        exact (written i j).trans (if_neg (by omega))
      · cases k with
        | zero =>
            cases found
            rw [before _ j (by omega)]
            refine (written _ j).trans ?_
            rw [if_pos (by omega)]
            simp
        | succ k =>
            have later := entries k n j found low high
            rw [counted] at later
            rw [show ((start : Int) + (k + 1 : Nat)) = ((start + 1 : Nat) : Int) + k by push_cast; ring, later]
            simp only [List.take_succ_cons, List.map_cons, List.sum_cons]
            push_cast
            congr 1
            ring

theorem load_planes_geo (planes : List (Int × Nat)) (acc : DBManager F × Int)
    (empty : ∀ i, (acc.1.fPMGeoInfo i).getD [] = []) (i : Int) :
    ((planes.foldl loadPlane acc).1.fPMGeoInfo i).getD [] = [] := by
  induction planes generalizing acc with
  | nil => exact empty i
  | cons plane rest ih =>
      refine ih (loadPlane acc plane) (fun i' => ?_)
      have modules : ∀ (js : List Nat) (acc : DBManager F × Int),
          (js.foldl (loadModule plane.2) acc).1.fPMGeoInfo = acc.1.fPMGeoInfo := by
        intro js
        induction js with
        | nil => exact fun _ => rfl
        | cons j rest ih => exact fun acc => ih (loadModule plane.2 acc j)
      rw [loadPlane, modules]
      by_cases here : i' = plane.2
      · simp [here]
      · simpa [here] using empty i'

theorem load_geo_planes (geo : Int → Int → Option (GeoInfo F)) (counts : List Int) (start : Nat) (m m' : DBManager F)
    (loaded : (counts.zipIdx start).foldlM (fun (m : DBManager F) (plane : Int × Nat) =>
      ((List.range plane.1.toNat).mapM (fun j : Nat => geo plane.2 j)).map (fun records =>
        { m with
          fPMGeoInfo := Function.update m.fPMGeoInfo plane.2 (some ((m.fPMGeoInfo plane.2).getD [] ++ records)) })) m =
      some m') :
    (∃ f, m' = { m with fPMGeoInfo := f }) ∧ (∀ i : Int, i < start → m'.fPMGeoInfo i = m.fPMGeoInfo i) ∧
      ∀ (k : Nat) (count : Int), counts[k]? = some count →
        ∃ records, (List.range count.toNat).mapM (fun j : Nat => geo (start + k) j) = some records ∧
          m'.fPMGeoInfo (start + k) = some ((m.fPMGeoInfo (start + k)).getD [] ++ records) := by
  induction counts generalizing start m with
  | nil =>
      cases loaded
      exact ⟨⟨_, rfl⟩, fun _ _ => rfl, fun _ _ found => by cases found⟩
  | cons first rest ih =>
      rw [List.zipIdx_cons, List.foldlM_cons] at loaded
      obtain ⟨mid, read, later⟩ := Option.bind_eq_some_iff.mp loaded
      obtain ⟨records, listed, rfl⟩ := Option.map_eq_some_iff.mp read
      obtain ⟨⟨f, result⟩, before, entries⟩ := ih (start + 1) _ later
      refine ⟨⟨f, result⟩, fun i below => ?_, fun k count found => ?_⟩
      · have other : i ≠ start := Int.ne_of_lt below
        simpa [other] using before i (by omega)
      · cases k with
        | zero =>
            cases found
            refine ⟨records, by simpa using listed, ?_⟩
            simpa using before start (by omega)
        | succ k =>
            obtain ⟨records', listed', written⟩ := entries k count found
            have position : ((start + 1 : Nat) : Int) + k = start + (k + 1 : Nat) := by push_cast; ring
            have other : (start : Int) + (k + 1 : Nat) ≠ start := by omega
            rw [position] at listed' written
            dsimp only at written
            rw [Function.update_of_ne other] at written
            exact ⟨records', listed', written⟩

end DBManager

theorem DBManager.general_info_numbers (info : GeneralInfo) (m : DBManager F)
    (general : DBManager.loadGeneralInfo info = some m) (i : Nat) (count j : Int)
    (found : info.nmodule[i]? = some count) (low : 0 ≤ j) (high : j < count) :
    m.getGEMID i j = info.modulesBefore i + j ∧ m.getPlaneID (info.modulesBefore i + j) = i ∧
      m.getModuleID (info.modulesBefore i + j) = j := by
  by_cases matched : info.nplane = info.nmodule.length
  · rw [DBManager.loadGeneralInfo, if_pos matched] at general
    have planes := Option.some.inj general
    have blank : DBManager.Numbered (DBManager.fresh info : DBManager F) 0 := DBManager.numbered_fresh info
    obtain ⟨_, _, numbers⟩ := DBManager.load_planes_number info.nmodule 0 ((DBManager.fresh info : DBManager F), 0)
    have numbered := DBManager.load_planes_numbered info.nmodule.zipIdx (DBManager.fresh info, 0) blank
    rw [planes] at numbers numbered
    have entry : m.fmPMtoIgem i j = some (info.modulesBefore i + j) := by
      simpa [GeneralInfo.modulesBefore] using numbers i count j found low high
    obtain ⟨_, plane, module⟩ := numbered.back i j _ entry
    exact ⟨congrArg (fun g : Option Int => g.getD 0) entry, congrArg (fun g : Option Int => g.getD 0) plane,
      congrArg (fun g : Option Int => g.getD 0) module⟩
  · rw [DBManager.loadGeneralInfo, if_neg matched] at general
    cases general

theorem DBManager.general_info_geo (info : GeneralInfo) (m : DBManager F)
    (general : DBManager.loadGeneralInfo info = some m) (i : Int) : (m.fPMGeoInfo i).getD [] = [] := by
  by_cases matched : info.nplane = info.nmodule.length
  · rw [DBManager.loadGeneralInfo, if_pos matched] at general
    rw [← Option.some.inj general]
    exact DBManager.load_planes_geo info.nmodule.zipIdx (DBManager.fresh info, 0) (fun _ => rfl) i
  · rw [DBManager.loadGeneralInfo, if_neg matched] at general
    cases general

-- What LoadGeneralInfo and then LoadGeoInfo leave in a manager.
structure Loaded (info : GeneralInfo) (m : DBManager F) : Prop where
  counts : m.fNModule = info.nmodule
  chambers : m.fNChamber = info.nchamber
  number : ∀ (i : Nat) (count j : Int), info.nmodule[i]? = some count → 0 ≤ j → j < count →
    m.getGEMID i j = info.modulesBefore i + j ∧ m.getPlaneID (info.modulesBefore i + j) = i ∧
      m.getModuleID (info.modulesBefore i + j) = j
  records : ∀ (i : Nat) (count : Int), info.nmodule[i]? = some count → ((m.fPMGeoInfo i).getD []).length = count.toNat

theorem loaded_of_load (info : GeneralInfo) (geo : Int → Int → Option (GeoInfo F)) (m m' : DBManager F)
    (general : DBManager.loadGeneralInfo info = some m) (geometry : m.loadGeoInfo geo = some m') : Loaded info m' := by
  obtain ⟨counts, _, chambers⟩ := DBManager.load_general_info_fields info m general
  rw [DBManager.loadGeoInfo, counts] at geometry
  obtain ⟨⟨f, result⟩, _, entries⟩ := DBManager.load_geo_planes geo info.nmodule 0 m m' geometry
  refine ⟨by rw [result]; exact counts, by rw [result]; exact chambers, fun i count j found low high => ?_,
    fun i count found => ?_⟩
  · rw [result]
    exact DBManager.general_info_numbers info m general i count j found low high
  · obtain ⟨records, listed, written⟩ := entries i count found
    have position : ((0 : Nat) : Int) + i = i := Int.zero_add i
    rw [position] at written
    rw [written, Option.getD_some, DBManager.general_info_geo info m general, List.nil_append,
      traversal_length _ _ _ listed, List.length_range]

def GeoInfo.Spans [Arith F] (geo : GeoInfo F) (x : F) : Prop :=
  geo.xoffset - geo.dx / 2.0 ≤ x ∧ x ≤ geo.xoffset + geo.dx / 2.0

theorem module_loop [Arith F] (x : F) (records : List (GeoInfo F)) (start : Nat) (before : Int) :
    let module := (records.zipIdx start).foldl (fun (module : Int) (record : GeoInfo F × Nat) =>
      if record.1.xoffset - record.1.dx / 2.0 ≤ x ∧ x ≤ record.1.xoffset + record.1.dx / 2.0 then (record.2 : Int)
      else module) before
    (module = before ∧ ∀ geo ∈ records, ¬ geo.Spans x) ∨
      ∃ (k : Nat) (geo : GeoInfo F), records[k]? = some geo ∧ geo.Spans x ∧ module = start + k := by
  induction records generalizing start before with
  | nil => exact .inl ⟨rfl, fun _ member => by cases member⟩
  | cons record rest ih =>
      by_cases spans : record.Spans x
      · have first : (if record.xoffset - record.dx / 2.0 ≤ x ∧ x ≤ record.xoffset + record.dx / 2.0 then (start : Int)
            else before) = start := if_pos spans
        simp only [List.zipIdx_cons, List.foldl_cons, first]
        rcases ih (start + 1) start with ⟨last, _⟩ | ⟨k, geo, listed, inside, last⟩
        · exact .inr ⟨0, record, rfl, spans, last.trans (Int.add_zero _).symm⟩
        · refine .inr ⟨k + 1, geo, listed, inside, last.trans ?_⟩
          push_cast
          ring
      · have first : (if record.xoffset - record.dx / 2.0 ≤ x ∧ x ≤ record.xoffset + record.dx / 2.0 then (start : Int)
            else before) = before := if_neg spans
        simp only [List.zipIdx_cons, List.foldl_cons, first]
        rcases ih (start + 1) before with ⟨kept, outside⟩ | ⟨k, geo, listed, inside, last⟩
        · exact .inl ⟨kept, fun geo member => (List.mem_cons.mp member).elim (fun same => same ▸ spans) (outside geo)⟩
        · refine .inr ⟨k + 1, geo, listed, inside, last.trans ?_⟩
          push_cast
          ring

-- CheckIndex leaves the module counts when a chamber has no plane.
theorem check_index_cases (info : GeneralInfo) (m : DBManager F) (loaded : Loaded info m) (i j : Int) :
    (m.checkIndex i j = none ∧ info.nmodule.length ≤ i ∧ i < info.nchamber) ∨
      (m.checkIndex i j = some false ∧ ¬ (info.nmodule.length ≤ i ∧ i < info.nchamber)) ∨
      (m.checkIndex i j = some true ∧ 0 ≤ i ∧ i < info.nmodule.length ∧
        ∃ count, info.nmodule[i.toNat]? = some count ∧ 0 ≤ j ∧ j < count) := by
  have limit := loaded.chambers
  rw [DBManager.checkIndex, loaded.counts]
  by_cases outside : m.fNChamber ≤ i ∨ i < 0
  · rw [if_pos outside]
    exact .inr (.inl ⟨rfl, by omega⟩)
  · rw [if_neg outside]
    by_cases past : info.nmodule.length ≤ i
    · rw [List.getElem?_eq_none (by omega)]
      exact .inl ⟨rfl, past, by omega⟩
    · have below : i.toNat < info.nmodule.length := by omega
      have entry := List.getElem?_eq_getElem below
      rw [entry, Option.map_some]
      by_cases missing : info.nmodule[i.toNat] ≤ j ∨ j < 0
      · rw [decide_eq_true missing]
        exact .inr (.inl ⟨rfl, by omega⟩)
      · rw [decide_eq_false missing]
        exact .inr (.inr ⟨rfl, by omega, by omega, _, rfl, by omega, by omega⟩)

theorem geo_info_counted (info : GeneralInfo) (m : DBManager F) (loaded : Loaded info m) (i j count : Int) (plane : 0 ≤ i)
    (listed : info.nmodule[i.toNat]? = some count) (low : 0 ≤ j) (below : j < count) :
    ∃ record, m.geoInfo i j = some record := by
  have size := loaded.records i.toNat count listed
  rw [Int.toNat_of_nonneg plane] at size
  have room : j.toNat < ((m.fPMGeoInfo i).getD []).length := by omega
  exact ⟨_, List.getElem?_eq_getElem room⟩

-- A position of a plane lies in a module when some module of it spans x.
structure InModule [Arith F] (info : GeneralInfo) (m : DBManager F) (iplane : Int) (x : F) (module : Int) : Prop where
  plane : 0 ≤ iplane ∧ iplane < info.nmodule.length
  counted : 0 ≤ module ∧ ∃ count, info.nmodule[iplane.toNat]? = some count ∧ module < count
  spans : ∃ geo, m.geoInfo iplane module = some geo ∧ geo.Spans x

-- GetModuleIDFromPos answers with a module that spans x, or with one of its
-- two failure values.
theorem module_from_pos [Arith F] (info : GeneralInfo) (m : DBManager F) (loaded : Loaded info m) (iplane : Int) (x : F)
    (module : Int) (found : m.getModuleIDFromPos iplane x = some module) :
    module = fErrVal ∨ module = -1 ∨ InModule info m iplane x module := by
  obtain ⟨valid, checked, result⟩ := Option.map_eq_some_iff.mp found
  cases valid with
  | false => exact .inl result.symm
  | true =>
      by_cases outside : m.fNChamber ≤ iplane ∨ iplane < 0
      · rw [DBManager.checkIndex, if_pos outside] at checked
        cases checked
      · rw [DBManager.checkIndex, if_neg outside] at checked
        obtain ⟨count, listed, _⟩ := Option.map_eq_some_iff.mp checked
        rw [loaded.counts] at listed
        have low : 0 ≤ iplane := by omega
        have place : (iplane.toNat : Int) = iplane := Int.toNat_of_nonneg low
        have below := (List.getElem?_eq_some_iff.mp listed).1
        have size := loaded.records iplane.toNat count listed
        rw [place] at size
        rcases module_loop x ((m.fPMGeoInfo iplane).getD []) 0 (-1) with ⟨last, _⟩ | ⟨k, geo, entry, spans, last⟩
        · exact .inr (.inl (result.symm.trans last))
        · have number : module = k := (result.symm.trans last).trans (Int.zero_add _)
          have inside := (List.getElem?_eq_some_iff.mp entry).1
          refine .inr (.inr ⟨⟨low, by omega⟩, ⟨by omega, count, listed, by omega⟩, geo, ?_, spans⟩)
          rw [DBManager.geoInfo, number, Int.toNat_natCast]
          exact entry

end Solgem
