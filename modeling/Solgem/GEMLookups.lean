import Solgem.GEMNumbering
import Solgem.Lib.DefaultMap

set_option autoImplicit false

namespace Solgem

open Lib

variable {F : Type}

def GeneralInfo.modulesTotal (info : GeneralInfo) : Nat := info.modulesBefore info.nmodule.length

namespace DBManager

inductive Lookup where
  | gemID (ip im : Int)
  | planeID (igem : Int)
  | moduleID (igem : Int)
deriving DecidableEq

-- The answer, and the manager with what operator[] has entered.
def lookup (m : DBManager F) : Lookup → Int × DBManager F
  | .gemID ip im =>
      let (igem, modules) := readOrInsert 0 (m.fmPMtoIgem ip) im
      (igem, { m with fmPMtoIgem := Function.update m.fmPMtoIgem ip modules })
  | .planeID igem =>
      let (plane, planes) := readOrInsert 0 m.fmIgemtoPlane igem
      (plane, { m with fmIgemtoPlane := planes })
  | .moduleID igem =>
      let (module, modules) := readOrInsert 0 m.fmIgemtoModule igem
      (module, { m with fmIgemtoModule := modules })

def answer (m : DBManager F) (call : Lookup) : Int := (m.lookup call).1

def afterLookups (m : DBManager F) (calls : List Lookup) : DBManager F :=
  calls.foldl (fun m call => (m.lookup call).2) m

-- The plane and module numbers of the chambers, in the order the digitization
-- macro hands them to AddGEM.
def addGEMs (m : DBManager F) : Option (List (Int × Int)) :=
  (List.range m.fNGEMPlane.toNat).foldlM (fun chambers (i_plane : Nat) =>
    (m.getNModule i_plane).map (fun nmodule =>
      chambers ++ (List.range nmodule.toNat).map (fun i_module : Nat => ((i_plane : Int), (i_module : Int))))) []

theorem answer_value (m : DBManager F) (ip im igem : Int) :
    m.answer (.gemID ip im) = m.getGEMID ip im ∧ m.answer (.planeID igem) = m.getPlaneID igem ∧
      m.answer (.moduleID igem) = m.getModuleID igem :=
  ⟨read_or_insert_value 0 _ im, read_or_insert_value 0 _ igem, read_or_insert_value 0 _ igem⟩

-- What a run of lookups leaves of the loaded manager.
structure LookedUp (m m' : DBManager F) : Prop where
  igems : ∀ ip, Defaulted 0 (m.fmPMtoIgem ip) (m'.fmPMtoIgem ip)
  planes : Defaulted 0 m.fmIgemtoPlane m'.fmIgemtoPlane
  modules : Defaulted 0 m.fmIgemtoModule m'.fmIgemtoModule
  nplane : m'.fNGEMPlane = m.fNGEMPlane
  counts : m'.fNModule = m.fNModule

theorem looked_up_refl (m : DBManager F) : LookedUp m m :=
  ⟨fun _ => defaulted_refl 0 _, defaulted_refl 0 _, defaulted_refl 0 _, rfl, rfl⟩

theorem looked_up_trans (first second third : DBManager F) (early : LookedUp first second) (late : LookedUp second third) :
    LookedUp first third where
  igems ip := defaulted_trans 0 _ _ _ (early.igems ip) (late.igems ip)
  planes := defaulted_trans 0 _ _ _ early.planes late.planes
  modules := defaulted_trans 0 _ _ _ early.modules late.modules
  nplane := late.nplane.trans early.nplane
  counts := late.counts.trans early.counts

theorem lookup_step (m : DBManager F) (call : Lookup) : LookedUp m (m.lookup call).2 := by
  have same := looked_up_refl m
  cases call with
  | gemID ip im =>
      refine { same with igems := fun ip' => ?_ }
      by_cases here : ip' = ip
      · subst here
        simpa [lookup] using read_or_insert_defaulted 0 (m.fmPMtoIgem ip') im
      · simpa [lookup, here] using same.igems ip'
  | planeID igem => exact { same with planes := read_or_insert_defaulted 0 m.fmIgemtoPlane igem }
  | moduleID igem => exact { same with modules := read_or_insert_defaulted 0 m.fmIgemtoModule igem }

theorem lookups_run (m : DBManager F) (calls : List Lookup) : LookedUp m (m.afterLookups calls) := by
  induction calls generalizing m with
  | nil => exact looked_up_refl m
  | cons call rest ih => exact looked_up_trans _ _ _ (lookup_step m call) (ih (m.lookup call).2)

theorem answer_after (m : DBManager F) (calls : List Lookup) (call : Lookup) :
    (m.afterLookups calls).answer call = m.answer call := by
  have run := lookups_run m calls
  cases call with
  | gemID ip im =>
      rw [(answer_value _ ip im 0).1, (answer_value m ip im 0).1]
      exact defaulted_get 0 _ _ (run.igems ip) im
  | planeID igem =>
      rw [(answer_value _ 0 0 igem).2.1, (answer_value m 0 0 igem).2.1]
      exact defaulted_get 0 _ _ run.planes igem
  | moduleID igem =>
      rw [(answer_value _ 0 0 igem).2.2, (answer_value m 0 0 igem).2.2]
      exact defaulted_get 0 _ _ run.modules igem

theorem add_gems_after (m : DBManager F) (calls : List Lookup) : (m.afterLookups calls).addGEMs = m.addGEMs := by
  have run := lookups_run m calls
  simp only [addGEMs, getNModule, run.nplane, run.counts]

theorem load_planes_nplane (planes : List (Int × Nat)) (acc : DBManager F × Int) :
    (planes.foldl loadPlane acc).1.fNGEMPlane = acc.1.fNGEMPlane := by
  have modules : ∀ (i : Int) (js : List Nat) (acc : DBManager F × Int),
      (js.foldl (loadModule i) acc).1.fNGEMPlane = acc.1.fNGEMPlane := by
    intro i js
    induction js with
    | nil => exact fun _ => rfl
    | cons j rest ih => exact fun acc => ih (loadModule i acc j)
  induction planes generalizing acc with
  | nil => rfl
  | cons plane rest ih => exact (ih (loadPlane acc plane)).trans (modules plane.2 (List.range plane.1.toNat) _)

theorem general_info_nplane (info : GeneralInfo) (m : DBManager F) (general : loadGeneralInfo info = some m) :
    m.fNGEMPlane = info.nmodule.length := by
  by_cases matched : info.nplane = info.nmodule.length
  · rw [loadGeneralInfo, if_pos matched] at general
    rw [← Option.some.inj general]
    exact (load_planes_nplane info.nmodule.zipIdx (fresh info, 0)).trans matched
  · rw [loadGeneralInfo, if_neg matched] at general
    cases general

end DBManager

def GeneralInfo.count (info : GeneralInfo) (i : Nat) : Nat := (info.nmodule.getD i 0).toNat

theorem modules_before_rows (info : GeneralInfo) (i : Nat) :
    info.modulesBefore i = ((List.range i).map info.count).sum := by
  induction i with
  | zero => simp [GeneralInfo.modulesBefore]
  | succ i ih =>
      rw [GeneralInfo.modulesBefore] at ih ⊢
      rw [List.take_add_one, List.map_append, List.sum_append, ih, List.range_succ, List.map_append, List.sum_append]
      cases listed : info.nmodule[i]? with
      | none => simp [GeneralInfo.count, listed]
      | some count => simp [GeneralInfo.count, listed]

theorem count_listed (info : GeneralInfo) (i : Nat) (below : i < info.nmodule.length) :
    info.nmodule[i]? = some info.nmodule[i] ∧ (info.count i : Int) = max info.nmodule[i] 0 := by
  have listed : info.nmodule[i]? = some info.nmodule[i] := List.getElem?_eq_getElem below
  refine ⟨listed, ?_⟩
  rw [GeneralInfo.count, List.getD_eq_getElem?_getD, listed, Option.getD_some, Int.toNat_eq_max]

def GeneralInfo.chamber (i_plane i_module : Nat) : Int × Int := (i_plane, i_module)

theorem add_gems_rows (info : GeneralInfo) (m : DBManager F) (general : DBManager.loadGeneralInfo info = some m) :
    m.addGEMs = some ((List.range info.nmodule.length).flatMap (fun i =>
      (List.range (info.count i)).map (GeneralInfo.chamber i))) := by
  have counts := (DBManager.load_general_info_fields info m general).1
  have planes : m.fNGEMPlane.toNat = info.nmodule.length := by rw [DBManager.general_info_nplane info m general, Int.toNat_natCast]
  have loop : ∀ n ≤ info.nmodule.length, (List.range n).foldlM (fun chambers (i_plane : Nat) =>
      (m.getNModule i_plane).map (fun nmodule =>
        chambers ++ (List.range nmodule.toNat).map (fun i_module : Nat => ((i_plane : Int), (i_module : Int))))) [] =
      some ((List.range n).flatMap (fun i => (List.range (info.count i)).map (GeneralInfo.chamber i))) := by
    intro n
    induction n with
    | zero => exact fun _ => rfl
    | succ n ih =>
        intro room
        have listed := (count_listed info n room).1
        have module : m.getNModule n = some info.nmodule[n] := by
          rw [DBManager.getNModule, if_neg (Int.not_lt.mpr (Int.natCast_nonneg n)), Int.toNat_natCast, counts, listed]
        have count : info.count n = info.nmodule[n].toNat := by
          rw [GeneralInfo.count, List.getD_eq_getElem?_getD, listed, Option.getD_some]
        rw [List.range_succ, List.foldlM_append, ih (Nat.le_of_succ_le room)]
        simp [module, count, GeneralInfo.chamber]
  rw [DBManager.addGEMs, planes]
  exact loop info.nmodule.length (Nat.le_refl _)

-- The numbering after any lookups: both ways, and the position of the chamber
-- in the spectrometer.
theorem gem_numbering_bijective (info : GeneralInfo) (m : DBManager F)
    (general : DBManager.loadGeneralInfo info = some m) (calls calls' calls'' : List DBManager.Lookup) :
    (∀ (i : Nat) (nmodule j : Int), info.nmodule[i]? = some nmodule → 0 ≤ j → j < nmodule →
      let g : Int := info.modulesBefore i + j
      (m.afterLookups calls).answer (.gemID i j) = g ∧ (m.afterLookups calls).answer (.planeID g) = i ∧
        (m.afterLookups calls).answer (.moduleID g) = j) ∧
    ∃ chambers, (m.afterLookups calls).addGEMs = some chambers ∧ chambers.length = info.modulesTotal ∧
      ∀ g : Nat, g < info.modulesTotal →
        let plane := (m.afterLookups calls).answer (.planeID g)
        let module := (m.afterLookups calls').answer (.moduleID g)
        (m.afterLookups calls'').answer (.gemID plane module) = g ∧ chambers[g]? = some (plane, module) := by
  refine ⟨fun i nmodule j listed low high => ?_, _, (DBManager.add_gems_after m calls).trans (add_gems_rows info m general),
    ?_, fun g below => ?_⟩
  · simp only [DBManager.answer_after, DBManager.answer_value m i j 0, (DBManager.answer_value m 0 0 _).2]
    exact DBManager.general_info_numbers info m general i nmodule j listed low high
  · rw [rows_length, GeneralInfo.modulesTotal, modules_before_rows]
  · rw [GeneralInfo.modulesTotal, modules_before_rows] at below
    obtain ⟨i, j, row, column, place⟩ := rows_cover info.count info.nmodule.length g below
    obtain ⟨listed, count⟩ := count_listed info i row
    have numbers := DBManager.general_info_numbers info m general i info.nmodule[i] j listed (Int.natCast_nonneg j) (by omega)
    rw [← modules_before_rows] at place
    have number : (info.modulesBefore i : Int) + j = g := by rw [place, Nat.cast_add]
    rw [number] at numbers
    simp only [DBManager.answer_after, (DBManager.answer_value m 0 0 (g : Int)).2.1, (DBManager.answer_value m 0 0 (g : Int)).2.2,
      numbers.2.1, numbers.2.2, (DBManager.answer_value m i j 0).1]
    refine ⟨numbers.1, ?_⟩
    rw [place, modules_before_rows]
    exact rows_entry info.count GeneralInfo.chamber info.nmodule.length i j row column

-- Two modules, an empty plane and one more module.
def threePlanes : GeneralInfo := ⟨1, 3, [2, 0, 1], 1280, 3⟩

theorem three_planes_numbered : ∃ m : DBManager Int, DBManager.loadGeneralInfo threePlanes = some m ∧
    m.addGEMs = some [(0, 0), (0, 1), (2, 0)] ∧
    (m.afterLookups [.planeID 7, .gemID 1 0, .moduleID (-1)]).answer (.gemID 2 0) = 2 ∧
    (m.afterLookups [.gemID 2 5]).answer (.planeID 2) = 2 ∧ (m.afterLookups [.gemID 2 5]).answer (.moduleID 2) = 0 := by
  refine ⟨_, rfl, rfl, ?_, ?_⟩
  · exact ((gem_numbering_bijective threePlanes _ rfl [.planeID 7, .gemID 1 0, .moduleID (-1)] [] []).1 2 1 0 rfl
      (by decide) (by decide)).1
  · exact ((gem_numbering_bijective threePlanes _ rfl [.gemID 2 5] [] []).1 2 1 0 rfl (by decide) (by decide)).2

end Solgem
