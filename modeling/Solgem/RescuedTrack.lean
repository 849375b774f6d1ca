import Mathlib.Data.Fin.VecNotation
import Mathlib.Data.List.MinMax
import Mathlib.Tactic.Positivity
import Solgem.ExactArith
import Solgem.FillBits
import Solgem.HitAttribution

set_option autoImplicit false

namespace Solgem

open Lib

section
variable {F : Type} [Arith F]

-- An entry of g4sbs_tree with the branches of detector type 2 as well.
structure SBSTree (F : Type) extends G4SBSTree F where
  Harm_SBSGEM_hit : List (RawHit F)

-- The arrays of case 2 before anything is written to them.
structure SBSUnwritten (F : Type) extends Unwritten F where
  gen_data_temp_sbs : Fin 9 → F
  gen_data_temp_max : Fin 9 → F

-- TSBSGeant4File with the signal particles its manager holds.
structure SBSFile (F : Type) extends Geant4File F where
  fSigPID : List Int

def fErrID : Int := -999

-- What the hit loop of case 2 carries along.
structure SBSLoop (F : Type) where
  fg4sbsHitData : List (G4SBSHitData F)
  fg4sbsGenData : List (G4SBSHitData F)
  trid_hits : List Int
  pmax : F
  gen_data_temp : Fin 9 → F
  gen_data_temp_max : Fin 9 → F

def RawHit.Mom (h : RawHit F) : V3 F :=
  let pz := Arith.sqrt (h.p * h.p / (h.txp * h.txp + h.typ * h.typ + 1.0))
  ⟨h.txp * pz * 1.0e3, h.typ * pz * 1.0e3, pz * 1.0e3⟩

def RawHit.Vtx (h : RawHit F) : V3 F := ⟨h.vx * 1.0e3, h.vy * 1.0e3, h.vz * 1.0e3⟩

namespace G4SBSHitData

-- The getters of g4sbsgendata.
def getTRID (h : G4SBSHitData F) : Int := Arith.trunc (if h.isFilled then Arith.ofInt (Arith.trunc (h.fData 0)) else (-1e9 : F))
def getPID (h : G4SBSHitData F) : Int := Arith.trunc (if h.isFilled then Arith.ofInt (Arith.trunc (h.fData 1)) else (-1e9 : F))
def getP (h : G4SBSHitData F) : V3 F := if h.isFilled then ⟨h.fData 2, h.fData 3, h.fData 4⟩ else ⟨-1e9, -1e9, -1e9⟩
def getV (h : G4SBSHitData F) : V3 F := if h.isFilled then ⟨h.fData 5, h.fData 6, h.fData 7⟩ else ⟨-1e9, -1e9, -1e9⟩

end G4SBSHitData

namespace SBSFile

def getSigPID (f : SBSFile F) (i : Nat) : Int := f.fSigPID.getD i fErrID

-- The offsets are those of module, which this case leaves at 0; the limits are
-- those of sector. The energy and the times go through an int.
def sbsHitDataTemp (f : SBSFile F) (h : RawHit F) (plane module sector : Int) : Option (List F) := do
  let xoffset ← f.fManager.getXOffset plane module
  let d0 ← f.fManager.getD0 plane module
  let dx ← f.fManager.getDX plane sector
  let dy ← f.fManager.getDY plane sector
  let X_in : V3 F := ⟨(h.xin - xoffset) * 1.0e3, h.yin * 1.0e3, (h.zin + f.fg4sbsZSpecOffset - d0) * 1.0e3⟩
  let X_out : V3 F := ⟨(h.xout - xoffset) * 1.0e3, h.yout * 1.0e3, (h.zout + f.fg4sbsZSpecOffset - d0) * 1.0e3⟩
  let X_RO : V3 F := ⟨X_in.x + (h.xout - h.xin) * 9.185 / 3.0, X_in.y + (h.yout - h.yin) * 9.185 / 3.0, 7.685⟩
  let limitX := Geant4File.setAtLimit dx X_out.x
  let limitY := Geant4File.setAtLimit dy X_out.y
  pure
    [Arith.ofInt plane, Arith.ofInt (Arith.trunc (h.edep * 1.0e3)),
      limitX.getD X_RO.x, limitY.getD X_RO.y, X_RO.z,
      X_in.x, X_in.y, X_in.z, Arith.ofInt (Arith.trunc h.tmin),
      limitX.getD X_out.x, limitY.getD X_out.y, X_out.z, Arith.ofInt (Arith.trunc h.tmax), Arith.ofInt (h.mid + f.fSource + 1),
      h.Vtx.x, h.Vtx.y, h.Vtx.z,
      Arith.ofInt h.trid, Arith.ofInt h.pid, Arith.ofInt sector,
      h.Mom.x, h.Mom.y, h.Mom.z]

def sbsGenDataTemp (weight : F) (h : RawHit F) : Fin 9 → F :=
  ![Arith.ofInt h.trid, Arith.ofInt h.pid, h.Mom.x, h.Mom.y, h.Mom.z, h.Vtx.x, h.Vtx.y, h.Vtx.z, weight]

-- A g4sbsgendata record of 15 doubles, and the loop that sets the first 9.
def storeGenData (memory : Nat → F) (gen_data_temp : Fin 9 → F) : Option (G4SBSHitData F) :=
  (G4SBSHitData.new memory (-1) 15).map (fun record => (record.setData 8 1.0).setAll (List.ofFn gen_data_temp))

-- One pass of the hit loop; none when a vector index is out of range.
def readSBSHit (f : SBSFile F) (unwritten : SBSUnwritten F) (weight : F) (s : SBSLoop F) (h : RawHit F) :
    Option (SBSLoop F) := do
  let type := h.mid + f.fSource + 1
  let plane := h.plane - 1
  let sector ← f.fManager.getModuleIDFromPos plane h.tx
  let hit_data_temp ← f.sbsHitDataTemp h plane 0 sector
  let record ← G4SBSHitData.new (unwritten.hitData s.fg4sbsHitData.length) 2 23
  let gen_data_temp := sbsGenDataTemp weight h
  let rescuable : Bool := s.pmax < h.p ∧ h.pid = f.getSigPID 0
  let genData ←
    if f.fSource = 0 ∧ s.fg4sbsGenData.length = 0 ∧ type = 1 then
      (storeGenData unwritten.genData gen_data_temp).map (fun record => s.fg4sbsGenData ++ [record])
    else some s.fg4sbsGenData
  return {
    fg4sbsHitData := s.fg4sbsHitData ++ [record.setAll hit_data_temp]
    fg4sbsGenData := genData
    trid_hits := s.trid_hits ++ [h.trid]
    pmax := if rescuable then h.p else s.pmax
    gen_data_temp := gen_data_temp
    gen_data_temp_max := if rescuable then gen_data_temp else s.gen_data_temp_max }

-- The track of three hits whose ID is gen_data_temp_max[0] is stored, from
-- gen_data_temp.
def rescue (f : SBSFile F) (unwritten : SBSUnwritten F) (s : SBSLoop F) : Option (List (G4SBSHitData F)) :=
  if f.fSource = 0 ∧ s.fg4sbsGenData.length = 0 ∧ 3 ≤ s.fg4sbsHitData.length then
    let n_hits_max := s.trid_hits.countP (fun trid =>
      s.gen_data_temp_max 0 ≤ Arith.ofInt trid ∧ Arith.ofInt trid ≤ s.gen_data_temp_max 0)
    if 3 ≤ n_hits_max then
      (storeGenData unwritten.genData s.gen_data_temp).map (fun record => s.fg4sbsGenData ++ [record])
    else some s.fg4sbsGenData
  else some s.fg4sbsGenData

def readSBSGEM (f : SBSFile F) (unwritten : SBSUnwritten F) (tree : SBSTree F) : Option (SBSFile F) := do
  let s ← tree.Harm_SBSGEM_hit.foldlM (f.readSBSHit unwritten (tree.ev_solang * tree.ev_sigma))
    ⟨[], [], [], 0.0, unwritten.gen_data_temp_sbs, unwritten.gen_data_temp_max⟩
  let genData ← f.rescue unwritten s
  return { f with fg4sbsHitData := s.fg4sbsHitData, fg4sbsGenData := genData }

-- ReadNextEvent with the case of detector type 2.
def readEvent (f : SBSFile F) (unwritten : SBSUnwritten F) (entry : Option (SBSTree F)) : Option (SBSFile F) :=
  match entry with
  | some tree =>
      if f.fManager.fg4sbsDetectorType = 2 then
        readSBSGEM { f with fg4sbsHitData := [], fg4sbsGenData := [], fEvNum := f.fEvNum + 1 } unwritten tree
      else
        (f.toGeant4File.readNextEvent unwritten.toUnwritten (some tree.toG4SBSTree)).map (fun g => { f with toGeant4File := g })
  | none => (f.toGeant4File.readNextEvent unwritten.toUnwritten none).map (fun g => { f with toGeant4File := g })

end SBSFile

-- Storing sets the weight and the first nine of the fifteen doubles.
theorem set_all_store (record : G4SBSHitData F) (values : List F) :
    (record.setData 8 1.0).setAll values = record.store ((8, 1.0) :: values.zipIdx.map Prod.swap) := by
  rw [G4SBSHitData.store, List.foldl_cons, List.foldl_map]
  rfl

theorem gen_data_not_filled (memory : Nat → F) (values : Fin 9 → F) (record : G4SBSHitData F)
    (stored : SBSFile.storeGenData memory values = some record) : record.isFilled = false := by
  obtain ⟨made, allocated, rfl⟩ := Option.map_eq_some_iff.mp stored
  rw [set_all_store]
  have bits := G4SBSHitData.stored_is_filled memory 15 _ _ (G4SBSHitData.store_stored memory (-1) 15 made allocated
    ((8, 1.0) :: (List.ofFn values).zipIdx.map Prod.swap))
  cases filled : G4SBSHitData.isFilled (made.store ((8, 1.0) :: (List.ofFn values).zipIdx.map Prod.swap)) with
  | false => rfl
  | true =>
      cases ((bits.mp filled) 14 (by decide)).mpr (by decide) with
      | inl zero => cases zero
      | inr set =>
          obtain ⟨call, member, _, index⟩ := set
          cases List.mem_cons.mp member with
          | inl weight =>
              rw [weight] at index
              cases index
          | inr copied =>
              obtain ⟨entry, listed, rfl⟩ := List.mem_map.mp copied
              have below := (List.mem_zipIdx listed).2.1
              rw [List.length_ofFn] at below
              simp only [Prod.fst_swap] at index
              omega

-- What the record holds all the same, whatever its getters answer.
theorem gen_data_raw (memory : Nat → F) (values : Fin 9 → F) (record : G4SBSHitData F)
    (stored : SBSFile.storeGenData memory values = some record) (j : Fin 9) : record.getData j = values j := by
  obtain ⟨made, allocated, rfl⟩ := Option.map_eq_some_iff.mp stored
  have size : (made.setData 8 1.0).fSize = 15 := by
    rw [G4SBSHitData.set_data_size]
    cases allocated
    rfl
  refine G4SBSHitData.set_all_get _ _ ?_ j (values j) ?_
  · rw [List.length_ofFn, size]
    decide
  · rw [List.getElem?_ofFn, dif_pos j.isLt]

theorem read_sbs_hit_total (info : GeneralInfo) (m : DBManager F) (loaded : Loaded info m)
    (chambers : info.nchamber ≤ info.nmodule.length) (f : SBSFile F) (manager : f.fManager = m) (unwritten : SBSUnwritten F)
    (weight : F) (s : SBSLoop F) (h : RawHit F) : ∃ s', f.readSBSHit unwritten weight s h = some s' := by
  obtain ⟨sector, found⟩ := module_from_pos_total info m loaded chambers (h.plane - 1) h.tx
  obtain ⟨xoffset, hasOffset⟩ := get_geo_total info m loaded chambers GeoInfo.xoffset (h.plane - 1) 0
  obtain ⟨d0, hasD0⟩ := get_geo_total info m loaded chambers GeoInfo.d0 (h.plane - 1) 0
  obtain ⟨dx, hasDX⟩ := get_geo_total info m loaded chambers GeoInfo.dx (h.plane - 1) sector
  obtain ⟨dy, hasDY⟩ := get_geo_total info m loaded chambers GeoInfo.dy (h.plane - 1) sector
  rw [← manager] at found hasOffset hasD0 hasDX hasDY
  obtain ⟨values, made⟩ : ∃ values, f.sbsHitDataTemp h (h.plane - 1) 0 sector = some values :=
    ⟨_, Option.bind_eq_some_iff.mpr ⟨xoffset, hasOffset, Option.bind_eq_some_iff.mpr ⟨d0, hasD0,
      Option.bind_eq_some_iff.mpr ⟨dx, hasDX, Option.bind_eq_some_iff.mpr ⟨dy, hasDY, rfl⟩⟩⟩⟩⟩
  obtain ⟨record, allocated⟩ : ∃ record, G4SBSHitData.new (unwritten.hitData s.fg4sbsHitData.length) 2 23 = some record :=
    ⟨_, if_neg (by decide)⟩
  rw [SBSFile.readSBSHit]
  simp only [found, made, allocated, Option.bind_eq_bind, Option.bind_some]
  split <;> exact ⟨_, rfl⟩

theorem read_event_total (info : GeneralInfo) (m : DBManager F) (loaded : Loaded info m)
    (chambers : info.nchamber ≤ info.nmodule.length) (f : SBSFile F) (manager : f.fManager = m) (unwritten : SBSUnwritten F)
    (tree : SBSTree F) (detector : f.fManager.fg4sbsDetectorType = 2) : ∃ f', f.readEvent unwritten (some tree) = some f' := by
  rw [SBSFile.readEvent, if_pos detector]
  let cleared : SBSFile F := { f with fg4sbsHitData := [], fg4sbsGenData := [], fEvNum := f.fEvNum + 1 }
  obtain ⟨s, run, _⟩ := run_total
    (fun s h s' => cleared.readSBSHit unwritten (tree.ev_solang * tree.ev_sigma) s h = some s') (fun _ _ => True) []
    tree.Harm_SBSGEM_hit
    (fun _ h s _ _ =>
      (read_sbs_hit_total info m loaded chambers cleared manager unwritten (tree.ev_solang * tree.ev_sigma) s h).imp
        fun _ read => ⟨read, trivial⟩)
    ⟨[], [], [], 0.0, unwritten.gen_data_temp_sbs, unwritten.gen_data_temp_max⟩ trivial
  obtain ⟨records, rescued⟩ : ∃ records, cleared.rescue unwritten s = some records := by
    rw [SBSFile.rescue]
    split
    · dsimp only
      split <;> exact ⟨_, rfl⟩
    · exact ⟨_, rfl⟩
  exact ⟨_, Option.bind_eq_some_iff.mpr ⟨s, (foldlM_run _ _ _ _).mpr run, Option.bind_eq_some_iff.mpr ⟨records, rescued, rfl⟩⟩⟩

end

-- The getters of a generated track give a hit's particle.
structure Describes (record : G4SBSHitData ℝ) (h : RawHit ℝ) : Prop where
  trid : record.getTRID = h.trid
  pid : record.getPID = h.pid
  momentum : record.getP = h.Mom
  vertex : record.getV = h.Vtx

theorem mom_forward (h : RawHit ℝ) : 0 ≤ h.Mom.z := by
  change 0 ≤ Real.sqrt _ * 1.0e3
  exact mul_nonneg (Real.sqrt_nonneg _) (by norm_num)

theorem not_filled_describes_nothing (record : G4SBSHitData ℝ) (unfilled : record.isFilled = false) (h : RawHit ℝ) :
    ¬ Describes record h := by
  intro described
  have momentum := congrArg V3.z described.momentum
  rw [G4SBSHitData.getP, unfilled, if_neg Bool.false_ne_true] at momentum
  have forward := mom_forward h
  rw [← momentum] at forward
  norm_num at forward

-- The first of the hits with the signal PID whose momentum none of them exceeds.
noncomputable def highestSignal (sigPID : Int) (hits : List (RawHit ℝ)) : Option (RawHit ℝ) :=
  (hits.filter (fun h => h.pid = sigPID)).argmax RawHit.p

def carries (hits : List (RawHit ℝ)) (trid : Int) : Nat := hits.countP (fun h => h.trid = trid)

theorem highest_signal_max (sigPID : Int) (hits : List (RawHit ℝ)) (h : RawHit ℝ) (highest : highestSignal sigPID hits = some h) :
    h ∈ hits ∧ h.pid = sigPID ∧ ∀ other ∈ hits, other.pid = sigPID → other.p ≤ h.p := by
  obtain ⟨listed, signal⟩ := List.mem_filter.mp (List.argmax_mem highest)
  refine ⟨listed, of_decide_eq_true signal, fun other member same => ?_⟩
  exact List.le_of_mem_argmax (List.mem_filter.mpr ⟨member, decide_eq_true same⟩) highest

theorem highest_signal_append (sigPID : Int) (past : List (RawHit ℝ)) (h : RawHit ℝ) :
    highestSignal sigPID (past ++ [h]) =
      if h.pid = sigPID then
        match highestSignal sigPID past with
        | none => some h
        | some best => if best.p < h.p then some h else some best
      else highestSignal sigPID past := by
  rw [highestSignal, List.filter_append]
  by_cases signal : h.pid = sigPID
  · rw [if_pos signal, List.filter_singleton, decide_eq_true signal, cond_true, List.argmax_concat, highestSignal]
    cases (past.filter (fun h => decide (h.pid = sigPID))).argmax RawHit.p <;> rfl
  · rw [if_neg signal, List.filter_singleton, decide_eq_false signal, cond_false, List.append_nil, highestSignal]

-- The hit that gen_data_temp_max is copied from: pmax starts at 0.
noncomputable def rescuable (sigPID : Int) (hits : List (RawHit ℝ)) : Option (RawHit ℝ) :=
  (highestSignal sigPID hits).filter (fun h => decide (0 < h.p))

theorem rescuable_append (sigPID : Int) (past : List (RawHit ℝ)) (h : RawHit ℝ) :
    rescuable sigPID (past ++ [h]) =
      if (rescuable sigPID past).elim 0 RawHit.p < h.p ∧ h.pid = sigPID then some h else rescuable sigPID past := by
  rw [rescuable, highest_signal_append, rescuable]
  by_cases signal : h.pid = sigPID
  · rw [if_pos signal]
    cases highestSignal sigPID past with
    | none => by_cases positive : 0 < h.p <;> simp [Option.filter_some, signal, positive]
    | some best =>
        simp only [Option.filter_some, signal, and_true]
        by_cases first : 0 < best.p
        · by_cases higher : best.p < h.p
          · simp [Option.filter_some, first, higher, first.trans higher]
          · simp [Option.filter_some, first, higher]
        · by_cases positive : 0 < h.p
          · have higher : best.p < h.p := (not_lt.mp first).trans_lt positive
            simp [Option.filter_some, first, positive, higher]
          · by_cases higher : best.p < h.p <;> simp [Option.filter_some, first, positive, higher]
  · simp [signal]

-- The state of the hit loop after hits that are all secondary.
structure Passed (f : SBSFile ℝ) (unwritten : SBSUnwritten ℝ) (weight : ℝ) (past : List (RawHit ℝ)) (s : SBSLoop ℝ) :
    Prop where
  gens : s.fg4sbsGenData = []
  hits : s.fg4sbsHitData.length = past.length
  trids : s.trid_hits = past.map RawHit.trid
  last : ∀ h, past.getLast? = some h → s.gen_data_temp = SBSFile.sbsGenDataTemp weight h
  pmax : s.pmax = (rescuable (f.getSigPID 0) past).elim 0 RawHit.p
  best : s.gen_data_temp_max = (rescuable (f.getSigPID 0) past).elim unwritten.gen_data_temp_max (SBSFile.sbsGenDataTemp weight)

section
variable (f : SBSFile ℝ) (unwritten : SBSUnwritten ℝ) (weight : ℝ) (signal : f.fSource = 0)
include signal

theorem read_sbs_hit_passed (past : List (RawHit ℝ)) (h : RawHit ℝ) (s s' : SBSLoop ℝ) (secondary : h.mid ≠ 0)
    (passed : Passed f unwritten weight past s) (read : f.readSBSHit unwritten weight s h = some s') :
    Passed f unwritten weight (past ++ [h]) s' := by
  obtain ⟨sector, _, read⟩ := Option.bind_eq_some_iff.mp read
  obtain ⟨values, _, read⟩ := Option.bind_eq_some_iff.mp read
  obtain ⟨record, _, read⟩ := Option.bind_eq_some_iff.mp read
  have other_type : ¬ (f.fSource = 0 ∧ s.fg4sbsGenData.length = 0 ∧ h.mid + f.fSource + 1 = 1) := by
    intro primary
    rw [signal] at primary
    exact secondary (by omega)
  rw [if_neg other_type, Option.bind_eq_bind, Option.bind_some] at read
  cases read
  refine ⟨passed.gens, ?_, ?_, ?_, ?_, ?_⟩
  · rw [List.length_append, List.length_append, passed.hits]
    rfl
  · rw [passed.trids, List.map_append]
    rfl
  · intro last latest
    rw [List.getLast?_concat, Option.some_inj] at latest
    rw [latest]
  · rw [rescuable_append, ← passed.pmax]
    by_cases higher : s.pmax < h.p ∧ h.pid = f.getSigPID 0
    · rw [if_pos higher, if_pos (decide_eq_true higher)]
      rfl
    · rw [if_neg higher, decide_eq_false higher, if_neg Bool.false_ne_true, passed.pmax]
  · dsimp only
    rw [rescuable_append, ← passed.pmax]
    by_cases higher : s.pmax < h.p ∧ h.pid = f.getSigPID 0
    · rw [if_pos higher, if_pos (decide_eq_true higher)]
      rfl
    · rw [if_neg higher, decide_eq_false higher, if_neg Bool.false_ne_true, passed.best]

theorem read_sbs_hits_passed (hits : List (RawHit ℝ)) (secondary : ∀ h ∈ hits, h.mid ≠ 0) (s : SBSLoop ℝ)
    (read : hits.foldlM (f.readSBSHit unwritten weight)
      ⟨[], [], [], 0.0, unwritten.gen_data_temp_sbs, unwritten.gen_data_temp_max⟩ = some s) :
    Passed f unwritten weight hits s := by
  have run := (foldlM_run _ _ _ _).mp read
  have kept := run_invariant _ (fun past s => (∀ h ∈ past, h.mid ≠ 0) → Passed f unwritten weight past s) ?_ [] hits _ s run ?_
  · exact kept secondary
  · intro past h s s' kept step secondary
    exact read_sbs_hit_passed f unwritten weight signal past h s s' (secondary h (by simp))
      (kept fun other member => secondary other (List.mem_append_left [h] member)) step
  · intro _
    have zero : (0.0 : ℝ) = 0 := by norm_num
    exact ⟨rfl, rfl, rfl, fun _ latest => (nomatch latest), zero, rfl⟩

-- The number of hits whose track ID is gen_data_temp_max[0].
noncomputable def n_hits_max (sigPID : Int) (memory : ℝ) (hits : List (RawHit ℝ)) : Nat :=
  hits.countP (fun h => decide ((h.trid : ℝ) = (rescuable sigPID hits).elim memory (fun best => (best.trid : ℝ))))

theorem rescue_result (hits : List (RawHit ℝ)) (three : 3 ≤ hits.length) (s : SBSLoop ℝ)
    (passed : Passed f unwritten weight hits s)
    (records : List (G4SBSHitData ℝ)) (rescued : f.rescue unwritten s = some records) :
    if 3 ≤ n_hits_max (f.getSigPID 0) (unwritten.gen_data_temp_max 0) hits then
      ∃ record last, records = [record] ∧ record.isFilled = false ∧ hits.getLast? = some last ∧
        ∀ j : Fin 9, record.getData j = SBSFile.sbsGenDataTemp weight last j
    else records = [] := by
  have counted : s.trid_hits.countP
      (fun trid => decide (s.gen_data_temp_max 0 ≤ Arith.ofInt trid ∧ Arith.ofInt trid ≤ s.gen_data_temp_max 0)) =
      n_hits_max (f.getSigPID 0) (unwritten.gen_data_temp_max 0) hits := by
    rw [passed.trids, List.countP_map, n_hits_max]
    refine List.countP_congr fun h _ => ?_
    have first : s.gen_data_temp_max 0 =
        (rescuable (f.getSigPID 0) hits).elim (unwritten.gen_data_temp_max 0) (fun best => (best.trid : ℝ)) := by
      rw [passed.best]
      cases rescuable (f.getSigPID 0) hits <;> rfl
    rw [← first]
    simp only [Function.comp_apply, decide_eq_true_eq]
    exact ⟨fun both => le_antisymm both.2 both.1, fun same => ⟨same.ge, same.le⟩⟩
  have enters : f.fSource = 0 ∧ s.fg4sbsGenData.length = 0 ∧ 3 ≤ s.fg4sbsHitData.length := by
    rw [passed.gens, passed.hits]
    exact ⟨signal, rfl, three⟩
  rw [SBSFile.rescue, if_pos enters] at rescued
  simp only [counted, passed.gens] at rescued
  split
  · rename_i enough
    rw [if_pos enough] at rescued
    obtain ⟨record, stored, rfl⟩ := Option.map_eq_some_iff.mp rescued
    obtain ⟨last, latest⟩ : ∃ last, hits.getLast? = some last := by
      cases found : hits.getLast? with
      | none =>
          rw [List.getLast?_eq_none_iff] at found
          rw [found] at three
          cases three
      | some last => exact ⟨last, rfl⟩
    refine ⟨record, last, rfl, gen_data_not_filled _ _ record stored, latest, fun j => ?_⟩
    rw [gen_data_raw _ _ record stored j, passed.last last latest]
  · rename_i few
    rw [if_neg few] at rescued
    exact (Option.some.inj rescued).symm

end

-- The record that is stored is wanted, and its getters describe the hit with
-- the signal PID of the highest momentum.
structure RescuesRight (sigPID : Int) (hits : List (RawHit ℝ)) (records : List (G4SBSHitData ℝ)) : Prop where
  stored : records ≠ [] ↔ ∃ best, highestSignal sigPID hits = some best ∧ 3 ≤ carries hits best.trid
  describes : ∀ record ∈ records, ∃ best, highestSignal sigPID hits = some best ∧ Describes record best

-- No track is wanted, and none is found by the uninitialised track ID.
structure NothingToRescue (sigPID : Int) (memory : ℝ) (hits : List (RawHit ℝ)) : Prop where
  unwanted : ∀ best, highestSignal sigPID hits = some best → carries hits best.trid < 3
  unwritten : (∀ h ∈ hits, h.pid = sigPID → ¬ 0 < h.p) → hits.countP (fun h => decide ((h.trid : ℝ) = memory)) < 3

theorem rescuable_none (sigPID : Int) (hits : List (RawHit ℝ)) :
    rescuable sigPID hits = none ↔ ∀ h ∈ hits, h.pid = sigPID → ¬ 0 < h.p := by
  rw [rescuable]
  cases highest : highestSignal sigPID hits with
  | none =>
      rw [highestSignal, List.argmax_eq_none, List.filter_eq_nil_iff] at highest
      exact ⟨fun _ h member signal => absurd (decide_eq_true signal) (highest h member), fun _ => rfl⟩
  | some best =>
      obtain ⟨listed, signal, most⟩ := highest_signal_max sigPID hits best highest
      rw [Option.filter_some, ite_eq_right_iff]
      constructor
      · intro low h member same positive
        cases low (decide_eq_true (positive.trans_le (most h member same)))
      · intro low positive
        exact absurd (of_decide_eq_true positive) (low best listed signal)

theorem rescuable_highest (sigPID : Int) (hits : List (RawHit ℝ)) (best : RawHit ℝ) (found : rescuable sigPID hits = some best) :
    highestSignal sigPID hits = some best := (Option.filter_eq_some_iff.mp found).1

-- Whether a record is stored decides it, as no record describes anything.
theorem few_hits_iff (sigPID : Int) (memory : ℝ) (hits : List (RawHit ℝ)) :
    (¬ 3 ≤ n_hits_max sigPID memory hits ∧ ∀ best, highestSignal sigPID hits = some best → carries hits best.trid < 3) ↔
      NothingToRescue sigPID memory hits := by
  rw [n_hits_max]
  cases found : rescuable sigPID hits with
  | none =>
      have low := (rescuable_none sigPID hits).mp found
      constructor
      · exact fun ⟨few, unwanted⟩ => ⟨unwanted, fun _ => not_le.mp few⟩
      · exact fun nothing => ⟨not_le.mpr (nothing.unwritten low), nothing.unwanted⟩
  | some best =>
      have highest := rescuable_highest sigPID hits best found
      have count : hits.countP (fun h => decide ((h.trid : ℝ) = (some best).elim memory (fun best => (best.trid : ℝ)))) =
          carries hits best.trid := List.countP_congr fun h _ => by simp
      rw [count]
      constructor
      · refine fun ⟨_, unwanted⟩ => ⟨unwanted, fun low => ?_⟩
        rw [(rescuable_none sigPID hits).mpr low] at found
        cases found
      · exact fun nothing => ⟨not_le.mpr (nothing.unwanted best highest), nothing.unwanted⟩

theorem read_event_records (f f' : SBSFile ℝ) (unwritten : SBSUnwritten ℝ) (tree : SBSTree ℝ) (signal : f.fSource = 0)
    (detector : f.fManager.fg4sbsDetectorType = 2) (secondary : ∀ h ∈ tree.Harm_SBSGEM_hit, h.mid ≠ 0)
    (three : 3 ≤ tree.Harm_SBSGEM_hit.length) (read : f.readEvent unwritten (some tree) = some f') :
    if 3 ≤ n_hits_max (f.getSigPID 0) (unwritten.gen_data_temp_max 0) tree.Harm_SBSGEM_hit then
      ∃ record last, f'.fg4sbsGenData = [record] ∧ record.isFilled = false ∧ tree.Harm_SBSGEM_hit.getLast? = some last ∧
        ∀ j : Fin 9, record.getData j = SBSFile.sbsGenDataTemp (tree.ev_solang * tree.ev_sigma) last j
    else f'.fg4sbsGenData = [] := by
  rw [SBSFile.readEvent, if_pos detector] at read
  obtain ⟨s, loop, read⟩ := Option.bind_eq_some_iff.mp read
  obtain ⟨records, rescued, read⟩ := Option.bind_eq_some_iff.mp read
  cases read
  have passed := read_sbs_hits_passed _ unwritten _ signal _ secondary s loop
  exact rescue_result _ unwritten _ signal _ three s passed records rescued

theorem rescue_exactly (f f' : SBSFile ℝ) (unwritten : SBSUnwritten ℝ) (tree : SBSTree ℝ) (signal : f.fSource = 0)
    (detector : f.fManager.fg4sbsDetectorType = 2) (secondary : ∀ h ∈ tree.Harm_SBSGEM_hit, h.mid ≠ 0)
    (three : 3 ≤ tree.Harm_SBSGEM_hit.length) (read : f.readEvent unwritten (some tree) = some f') :
    RescuesRight (f.getSigPID 0) tree.Harm_SBSGEM_hit f'.fg4sbsGenData ↔
      NothingToRescue (f.getSigPID 0) (unwritten.gen_data_temp_max 0) tree.Harm_SBSGEM_hit := by
  have result := read_event_records f f' unwritten tree signal detector secondary three read
  rw [← few_hits_iff]
  by_cases enough : 3 ≤ n_hits_max (f.getSigPID 0) (unwritten.gen_data_temp_max 0) tree.Harm_SBSGEM_hit
  · rw [if_pos enough] at result
    obtain ⟨record, last, stored, unfilled, _⟩ := result
    refine ⟨fun right => ?_, fun few => absurd enough few.1⟩
    rw [stored] at right
    obtain ⟨best, _, described⟩ := right.describes record (List.mem_singleton_self record)
    exact absurd described (not_filled_describes_nothing record unfilled best)
  · rw [if_neg enough] at result
    rw [result]
    constructor
    · intro right
      refine ⟨enough, fun best highest => ?_⟩
      by_contra many
      exact right.stored.mpr ⟨best, highest, not_lt.mp many⟩ rfl
    · rintro ⟨_, unwanted⟩
      refine ⟨⟨fun stored => absurd rfl stored, ?_⟩, fun _ none_stored => by cases none_stored⟩
      rintro ⟨best, highest, many⟩
      exact absurd many (not_le.mpr (unwanted best highest))

-- A secondary hit of momentum 1 in the middle of the one module.
noncomputable def sbsHit (trid pid : Int) : RawHit ℝ := ⟨1, trid, 1, pid, 1, 1, 0, 0, 0, 0, 0, 0, 0, 0, 0, 0, 0, 0, 0, 0⟩

noncomputable def sbsTree (hits : List (RawHit ℝ)) : SBSTree ℝ := { ftTree 0 with Harm_SBSGEM_hit := hits }

def sbsUnwritten : SBSUnwritten ℝ := ⟨⟨fun _ _ => 0, fun _ => 0, 0⟩, fun _ => 0, fun _ => 0⟩

def sbsInfo : GeneralInfo := ⟨1, 1, [1], 128, 2⟩

theorem sbs_reads (hits : List (RawHit ℝ)) :
    ∃ f f' : SBSFile ℝ, f.fSource = 0 ∧ f.getSigPID 0 = 11 ∧ f.fManager.fg4sbsDetectorType = 2 ∧
      f.readEvent sbsUnwritten (some (sbsTree hits)) = some f' := by
  obtain ⟨general, m, loadedInfo, loadedGeo, detector⟩ :
      ∃ general m : DBManager ℝ, DBManager.loadGeneralInfo sbsInfo = some general ∧
        general.loadGeoInfo (fun _ _ => some ⟨0, 0, 1, 1, 1, 1⟩) = some m ∧ m.fg4sbsDetectorType = 2 := ⟨_, _, rfl, rfl, rfl⟩
  let f : SBSFile ℝ := ⟨⟨m, 0, 0, 0, [], []⟩, [11]⟩
  obtain ⟨f', read⟩ := read_event_total sbsInfo m (loaded_of_load sbsInfo _ general m loadedInfo loadedGeo) (by decide) f rfl
    sbsUnwritten (sbsTree hits) detector
  exact ⟨f, f', rfl, rfl, detector, read⟩

-- Three particles with one hit each.
theorem nothing_rescued :
    ∃ f f' : SBSFile ℝ, f.readEvent sbsUnwritten (some (sbsTree [sbsHit 1 11, sbsHit 2 11, sbsHit 3 11])) = some f' ∧
      RescuesRight 11 [sbsHit 1 11, sbsHit 2 11, sbsHit 3 11] f'.fg4sbsGenData := by
  obtain ⟨f, f', signal, sigPID, detector, read⟩ := sbs_reads [sbsHit 1 11, sbsHit 2 11, sbsHit 3 11]
  have right := rescue_exactly f f' sbsUnwritten _ signal detector (by simp [sbsTree, sbsHit]) (by simp [sbsTree]) read
  rw [sigPID] at right
  refine ⟨f, f', read, right.mpr ⟨fun best highest => ?_, fun low => ?_⟩⟩
  · have member := (highest_signal_max _ _ best highest).1
    simp only [sbsTree, List.mem_cons, List.not_mem_nil, or_false] at member
    rcases member with rfl | rfl | rfl <;> simp [carries, sbsTree, sbsHit]
  · exact absurd zero_lt_one (low (sbsHit 1 11) (by simp [sbsTree]) rfl)

-- Three hits of an electron, and one of a photon after them: the record is
-- that of the photon, and its getters give error values.
theorem rescued_track_wrong :
    ∃ (f f' : SBSFile ℝ) (record : G4SBSHitData ℝ),
      f.readEvent sbsUnwritten (some (sbsTree [sbsHit 5 11, sbsHit 5 11, sbsHit 5 11, sbsHit 7 22])) = some f' ∧
      f'.fg4sbsGenData = [record] ∧ record.getTRID = -1000000000 ∧ record.getData 0 = 7 ∧
      ¬ RescuesRight 11 [sbsHit 5 11, sbsHit 5 11, sbsHit 5 11, sbsHit 7 22] f'.fg4sbsGenData := by
  obtain ⟨f, f', signal, sigPID, detector, read⟩ := sbs_reads [sbsHit 5 11, sbsHit 5 11, sbsHit 5 11, sbsHit 7 22]
  have result := read_event_records f f' sbsUnwritten _ signal detector (by simp [sbsTree, sbsHit]) (by simp [sbsTree]) read
  have enough : 3 ≤ n_hits_max 11 (sbsUnwritten.gen_data_temp_max 0)
      (sbsTree [sbsHit 5 11, sbsHit 5 11, sbsHit 5 11, sbsHit 7 22]).Harm_SBSGEM_hit := by
    change 3 ≤ n_hits_max 11 0 [sbsHit 5 11, sbsHit 5 11, sbsHit 5 11, sbsHit 7 22]
    rw [n_hits_max]
    cases found : rescuable 11 [sbsHit 5 11, sbsHit 5 11, sbsHit 5 11, sbsHit 7 22] with
    | none => exact absurd zero_lt_one ((rescuable_none _ _).mp found (sbsHit 5 11) List.mem_cons_self rfl)
    | some best =>
        obtain ⟨member, pid, _⟩ := highest_signal_max _ _ best (rescuable_highest _ _ best found)
        have electron : best.trid = 5 := by
          simp only [List.mem_cons, List.not_mem_nil, or_false] at member
          rcases member with rfl | rfl | rfl | rfl
          · rfl
          · rfl
          · rfl
          · cases pid
        simp [sbsHit, electron]
  rw [sigPID, if_pos enough] at result
  obtain ⟨record, last, stored, unfilled, latest, values⟩ := result
  refine ⟨f, f', record, read, stored, ?_, ?_, fun right => ?_⟩
  · rw [G4SBSHitData.getTRID, unfilled, if_neg Bool.false_ne_true]
    have error : (-1e9 : ℝ) = ((-1000000000 : Int) : ℝ) := by norm_num
    rw [error]
    exact trunc_whole (-1000000000)
  · cases latest
    have trid : record.getData 0 = ((7 : Int) : ℝ) := values 0
    rw [trid]
    norm_num
  · obtain ⟨best, _, described⟩ := right.describes record (by rw [stored]; exact List.mem_singleton_self record)
    exact not_filled_describes_nothing record unfilled best described

end Solgem
