import Mathlib.Logic.Function.Basic
import Solgem.DBManager
import Solgem.FindKey
import Solgem.TextStreams

set_option autoImplicit false

namespace Solgem

open Lib

inductive VarType where
  | kDouble
  | kInt
  | kIntV
  | kString
  | kOther
deriving DecidableEq

-- DBRequest; a variable is known by its name.
structure DBRequest where
  name : String
  var : String
  type : VarType
  optional : Bool

structure Vars (F : Type) where
  doubles : String → F
  ints : String → Int
  intVs : String → List Int
  strings : String → List Char

section
variable {F : Type} [Arith F]

-- The loop of the kIntV case: the stream is tested before a number is read,
-- and what was read is appended untested.
def readIntV (sv : IStringStream) (tempval : Int) (vec : List Int) : List Int × IStringStream :=
  match _test : sv.good with
  | false => (vec, sv)
  | true =>
      let r := sv.readInt tempval
      readIntV r.2 r.1 (vec ++ [r.1])
termination_by sv.todo
decreasing_by exact IStringStream.read_int_todo sv tempval _test

-- The switch over the type; no value for the default branch. tempval is what
-- the uninitialised variable of that name holds.
def convert (tempval : Int) (item : DBRequest) (val : List Char) (vars : Vars F) : Option (Vars F × IStringStream) :=
  let sv := IStringStream.opened val
  match item.type with
  | .kDouble =>
      let r := sv.readDouble (vars.doubles item.var)
      some ({ vars with doubles := Function.update vars.doubles item.var r.1 }, r.2)
  | .kInt =>
      let r := sv.readInt (vars.ints item.var)
      some ({ vars with ints := Function.update vars.ints item.var r.1 }, r.2)
  | .kIntV =>
      let r := readIntV sv tempval (vars.intVs item.var)
      some ({ vars with intVs := Function.update vars.intVs item.var r.1 }, r.2)
  | .kString =>
      let r := sv.readString (vars.strings item.var)
      some ({ vars with strings := Function.update vars.strings item.var r.1 }, r.2)
  | .kOther => none

def requestKey (pfx : String) (item : DBRequest) : List Char := pfx.toList ++ item.name.toList

structure Loading (F : Type) where
  err : Int
  vars : Vars F
  inp : IFStream

-- The field optional is not read.
def loadDB (tempval : DBRequest → Int) (pfx : String) : List DBRequest → IFStream → Vars F → Loading F
  | [], inp, vars => ⟨0, vars, inp⟩
  | item :: request, inp, vars =>
      let (val, inp) := findKey inp (requestKey pfx item)
      if val = [] then ⟨2, vars, inp⟩
      else
        match convert (tempval item) item val vars with
        | none => ⟨1, vars, inp⟩
        | some (vars, sv) => if sv.failbit then ⟨1, vars, inp⟩ else loadDB tempval pfx request inp vars

-- The request tables of LoadGeneralInfo and LoadGeoInfo; the fifth field is
-- left out, and false, for nmodule alone.
def generalInfoRequest : List DBRequest := [
  ⟨"do_map_sector", "fDoMapSector", .kInt, true⟩,
  ⟨"self_define_sector", "fDoSelfDefinedSector", .kInt, true⟩,
  ⟨"sector_mapped", "fMappedSector", .kInt, true⟩,
  ⟨"nchamber", "fNChamber", .kInt, true⟩,
  ⟨"nsector", "fNSector", .kInt, true⟩,
  ⟨"nplane", "fNGEMPlane", .kInt, true⟩,
  ⟨"nmodule", "NModule", .kIntV, false⟩,
  ⟨"nreadout", "fNReadOut", .kInt, true⟩,
  ⟨"gem_drift_id", "fGEMDriftID", .kInt, true⟩,
  ⟨"gem_copper_front_id", "fGEMCopperFrontID", .kInt, true⟩,
  ⟨"gem_copper_back_id", "fGEMCopperBackID", .kInt, true⟩,
  ⟨"gem_strip_id", "fGEMStripID", .kInt, true⟩,
  ⟨"faec_id", "fFAECID", .kInt, true⟩,
  ⟨"laec_id", "fLAECID", .kInt, true⟩,
  ⟨"nsignal", "fNSigParticle", .kInt, true⟩,
  ⟨"chan_per_slot", "fChanPerSlot", .kInt, true⟩,
  ⟨"modules_per_readout", "fModulesPerReadOut", .kInt, true⟩,
  ⟨"g4sbs_detectortype", "fg4sbsDetectorType", .kInt, true⟩,
  ⟨"g4sbs_z_specoffset", "fg4sbsZSpecOffset", .kDouble, true⟩,
  ⟨"calo_thr", "fCaloThr", .kDouble, true⟩,
  ⟨"z0", "fgZ0", .kDouble, true⟩,
  ⟨"calo_z", "fgCaloZ", .kDouble, true⟩,
  ⟨"calo_res", "fgCaloRes", .kDouble, true⟩,
  ⟨"docalo", "fgDoCalo", .kInt, true⟩,
  ⟨"order_optics", "fOrderOptics", .kInt, true⟩,
  ⟨"opticsfile", "fOpticsFile", .kString, true⟩]

def signalRequest : List DBRequest := [⟨"pid", "pid", .kInt, true⟩, ⟨"tid", "tid", .kInt, true⟩]

def geoRequest : List DBRequest := [
  ⟨"dmag", "thisGeo.dmag", .kDouble, true⟩,
  ⟨"d0", "thisGeo.d0", .kDouble, true⟩,
  ⟨"xoffset", "thisGeo.xoffset", .kDouble, true⟩,
  ⟨"dx", "thisGeo.dx", .kDouble, true⟩,
  ⟨"dy", "thisGeo.dy", .kDouble, true⟩,
  ⟨"thetaV", "thisGeo.thetaV", .kDouble, true⟩,
  ⟨"depth", "thisGeo.depth", .kDouble, true⟩]

def planeRequest : List DBRequest := [
  ⟨"x.stripangle", "thisGeo.stripangle_u", .kDouble, true⟩,
  ⟨"x.pitch", "thisGeo.pitch_u", .kDouble, true⟩,
  ⟨"y.stripangle", "thisGeo.stripangle_v", .kDouble, true⟩,
  ⟨"y.pitch", "thisGeo.pitch_v", .kDouble, true⟩]

-- The first part of LoadGeneralInfo; the program exits on any error.
def readGeneralInfo (tempval : DBRequest → Int) (inp : IFStream) (vars : Vars F) : Option GeneralInfo :=
  let loading := loadDB tempval "generalinfo." generalInfoRequest inp
    { vars with intVs := Function.update vars.intVs "NModule" [] }
  if loading.err = 0 then
    some {
      nchamber := loading.vars.ints "fNChamber"
      nplane := loading.vars.ints "fNGEMPlane"
      nmodule := loading.vars.intVs "NModule"
      chan_per_slot := loading.vars.ints "fChanPerSlot"
      g4sbs_detectortype := loading.vars.ints "fg4sbsDetectorType" }
  else none

-- LoadGeoInfo for one module: both tables, one after the other.
def readModuleGeo (tempval : DBRequest → Int) (pfx : String) (inp : IFStream) (vars : Vars F) : Option (GeoInfo F) :=
  let box := loadDB tempval pfx geoRequest inp vars
  if box.err = 0 then
    let plane := loadDB tempval pfx planeRequest box.inp box.vars
    if plane.err = 0 then
      some {
        d0 := plane.vars.doubles "thisGeo.d0"
        xoffset := plane.vars.doubles "thisGeo.xoffset"
        dx := plane.vars.doubles "thisGeo.dx"
        dy := plane.vars.doubles "thisGeo.dy"
        pitch_u := plane.vars.doubles "thisGeo.pitch_u"
        pitch_v := plane.vars.doubles "thisGeo.pitch_v" }
    else none
  else none

inductive Value (F : Type) where
  | double (x : F)
  | int (n : Int)
  | intV (ns : List Int)
  | string (s : List Char)

def successful {A B : Type} (make : A → B) (r : A × IStringStream) : Option B := if r.2.failbit then none else some (make r.1)

def readValue (type : VarType) (tempval : Int) (val : List Char) : Option (Value F) :=
  let sv := IStringStream.opened val
  match type with
  | .kDouble => successful .double (sv.readDouble (0.0 : F))
  | .kInt => successful .int (sv.readInt 0)
  | .kIntV => successful .intV (readIntV sv tempval [])
  | .kString => successful .string (sv.readString [])
  | .kOther => none

-- A variable takes a value; a vector is appended to.
def Vars.assign (vars : Vars F) (var : String) : Value F → Vars F
  | .double x => { vars with doubles := Function.update vars.doubles var x }
  | .int n => { vars with ints := Function.update vars.ints var n }
  | .intV ns => { vars with intVs := Function.update vars.intVs var (vars.intVs var ++ ns) }
  | .string s => { vars with strings := Function.update vars.strings var s }

def fileText (lines : List (List Char)) (pfx : String) (item : DBRequest) : List Char :=
  (searchLines (requestKey pfx item) lines).getD []

def fileValue (tempval : DBRequest → Int) (lines : List (List Char)) (pfx : String) (item : DBRequest) : Option (Value F) :=
  if fileText lines pfx item = [] then none else readValue item.type (tempval item) (fileText lines pfx item)

-- What the requests are to leave: every value the file has is assigned, in the
-- order of the requests.
def stored (tempval : DBRequest → Int) (lines : List (List Char)) (pfx : String) (request : List DBRequest) (vars : Vars F) :
    Vars F :=
  request.foldl (fun vars item => ((fileValue tempval lines pfx item).map (vars.assign item.var)).getD vars) vars

theorem read_int_v_test (sv : IStringStream) (tempval : Int) (vec : List Int) :
    readIntV sv tempval vec =
      if sv.good then readIntV (sv.readInt tempval).2 (sv.readInt tempval).1 (vec ++ [(sv.readInt tempval).1]) else (vec, sv) := by
  rw [readIntV]
  split
  · rename_i test
    rw [test, if_neg Bool.false_ne_true]
  · rename_i test
    rw [test, if_pos rfl]

theorem read_int_v_append (sv : IStringStream) (tempval : Int) (front vec : List Int) :
    readIntV sv tempval (front ++ vec) = (front ++ (readIntV sv tempval vec).1, (readIntV sv tempval vec).2) := by
  induction size : sv.todo using Nat.strongRecOn generalizing sv tempval vec with
  | ind n ih =>
      rw [read_int_v_test, read_int_v_test sv tempval vec]
      by_cases test : sv.good = true
      · rw [if_pos test, if_pos test, List.append_assoc]
        exact ih _ (size ▸ IStringStream.read_int_todo sv tempval test) _ _ _ rfl
      · rw [if_neg test, if_neg test]

theorem sentry_fails (sv : IStringStream) (empty : sv.sentry.1 = false) : sv.sentry.2.failbit = true := by
  by_cases test : sv.good = true
  · rw [IStringStream.sentry_text sv test] at empty ⊢
    split at empty
    · rename_i nothing
      rw [if_pos nothing]
    · cases empty
  · rw [IStringStream.sentry, if_neg test]

omit [Arith F] in
theorem successful_cases {A B : Type} (make : A → B) (r : A × IStringStream) :
    (∀ v, successful make r = some v → v = make r.1 ∧ r.2.failbit = false) ∧ (successful make r = none → r.2.failbit = true) := by
  rw [successful]
  cases failed : r.2.failbit with
  | true => exact ⟨fun v found => (by cases found), fun _ => rfl⟩
  | false => exact ⟨fun v found => ⟨(Option.some.inj found).symm, rfl⟩, fun none => (by cases none)⟩

-- A read after the sentry: the old value is seen only when the read fails.
theorem read_old {A : Type} (sv : IStringStream) (get : List Char → A × IStringStream) (old old' : A) :
    let r := if sv.sentry.1 then get sv.sentry.2.rest else (old, sv.sentry.2)
    let r' := if sv.sentry.1 then get sv.sentry.2.rest else (old', sv.sentry.2)
    r'.2 = r.2 ∧ (r.2.failbit = false → r' = r) := by
  intro r r'
  cases filled : sv.sentry.1 with
  | true =>
      have same : r = get sv.sentry.2.rest := if_pos filled
      have same' : r' = get sv.sentry.2.rest := if_pos filled
      rw [same, same']
      exact ⟨rfl, fun _ => rfl⟩
  | false =>
      have empty : ¬ sv.sentry.1 = true := by rw [filled]; exact Bool.false_ne_true
      have same : r = (old, sv.sentry.2) := if_neg empty
      have same' : r' = (old', sv.sentry.2) := if_neg empty
      rw [same, same']
      refine ⟨rfl, fun passed => ?_⟩
      rw [sentry_fails sv filled] at passed
      cases passed

-- What a case of the switch does with its read, given the same read into a
-- blank variable.
omit [Arith F] in
theorem convert_case {A : Type} (make : A → Value F) (vars stores : Vars F) (var : String) (r : A × IStringStream) (sv : IStringStream)
    (bits : sv = r.2) (store : r.2.failbit = false → stores = vars.assign var (make r.1)) :
    (∀ v, successful make r = some v → ∃ sv', some (stores, sv) = some (vars.assign var v, sv') ∧ sv'.failbit = false) ∧
    (successful make r = none → ∀ vars' sv', some (stores, sv) = some (vars', sv') → sv'.failbit = true) := by
  obtain ⟨passed, failed⟩ := successful_cases make r
  refine ⟨fun v found => ?_, fun none vars' sv' result => ?_⟩
  · obtain ⟨value, fine⟩ := passed v found
    rw [value, store fine]
    exact ⟨sv, rfl, by rw [bits, fine]⟩
  · cases result
    rw [bits]
    exact failed none

-- The switch assigns the value of the text, or it fails the stream.
theorem convert_value (tempval : Int) (item : DBRequest) (val : List Char) (vars : Vars F) :
    (∀ v, readValue item.type tempval val = some v →
      ∃ sv, convert tempval item val vars = some (vars.assign item.var v, sv) ∧ sv.failbit = false) ∧
    (readValue (F := F) item.type tempval val = none →
      ∀ vars' sv, convert tempval item val vars = some (vars', sv) → sv.failbit = true) := by
  cases type : item.type with
  | kDouble =>
      simp only [convert, type, readValue]
      obtain ⟨bits, passes⟩ := read_old (IStringStream.opened val) IStringStream.getDouble (0.0 : F) (vars.doubles item.var)
      exact convert_case .double vars _ item.var _ _ bits (fun fine => by rw [IStringStream.readDouble, passes fine]; rfl)
  | kInt =>
      simp only [convert, type, readValue]
      obtain ⟨bits, passes⟩ := read_old (IStringStream.opened val) IStringStream.getInt 0 (vars.ints item.var)
      exact convert_case .int vars _ item.var _ _ bits (fun fine => by rw [IStringStream.readInt, passes fine]; rfl)
  | kIntV =>
      simp only [convert, type, readValue]
      have appended := read_int_v_append (IStringStream.opened val) tempval (vars.intVs item.var) []
      rw [List.append_nil] at appended
      rw [appended]
      exact convert_case .intV vars _ item.var _ _ rfl (fun _ => rfl)
  | kString =>
      simp only [convert, type, readValue]
      obtain ⟨bits, passes⟩ := read_old (IStringStream.opened val) (fun text =>
        (text.takeWhile (fun c => !isSpace c), ⟨text.dropWhile (fun c => !isSpace c),
          decide (text.dropWhile (fun c => !isSpace c) = []), false⟩)) [] (vars.strings item.var)
      exact convert_case .string vars _ item.var _ _ bits (fun fine => by rw [IStringStream.readString, passes fine]; rfl)
  | kOther =>
      simp only [convert, type, readValue]
      exact ⟨fun v found => (by cases found), fun _ vars' sv found => (by cases found)⟩

section
variable (tempval : DBRequest → Int) (pfx : String)

theorem load_db_step (item : DBRequest) (request : List DBRequest) (inp : IFStream) (vars : Vars F) (good : inp.failbit = false) :
    (∀ v, fileValue tempval inp.lines pfx item = some v → ∃ inp', inp'.failbit = false ∧ inp'.content = inp.content ∧
      loadDB tempval pfx (item :: request) inp vars = loadDB tempval pfx request inp' (vars.assign item.var v)) ∧
    (fileValue (F := F) tempval inp.lines pfx item = none → (loadDB tempval pfx (item :: request) inp vars).err ≠ 0) := by
  obtain ⟨text, failed, same⟩ := find_key_lines inp (requestKey pfx item) good
  have value : (findKey inp (requestKey pfx item)).1 = fileText inp.lines pfx item := text
  rw [loadDB]
  by_cases missing : fileText inp.lines pfx item = []
  · simp only [fileValue, value, missing, if_pos]
    exact ⟨fun v found => (by cases found), fun _ => (by decide)⟩
  · obtain ⟨stops, fails⟩ := convert_value (tempval item) item (fileText inp.lines pfx item) vars
    have found : (findKey inp (requestKey pfx item)).2.failbit = false := by
      rw [failed]
      cases answer : searchLines (requestKey pfx item) inp.lines with
      | none =>
          rw [fileText, answer] at missing
          exact absurd rfl missing
      | some v => rfl
    simp only [fileValue, value, if_neg missing]
    refine ⟨fun v read => ?_, fun none => ?_⟩
    · obtain ⟨sv, converted, passed⟩ := stops v read
      refine ⟨_, found, same, ?_⟩
      rw [converted]
      dsimp only
      rw [passed, if_neg Bool.false_ne_true]
    · cases converted : convert (tempval item) item (fileText inp.lines pfx item) vars with
      | none => exact Int.one_ne_zero
      | some result =>
          have bad : result.2.failbit = true := fails none result.1 result.2 converted
          dsimp only
          rw [bad, if_pos rfl]
          exact Int.one_ne_zero

theorem load_db_all (request : List DBRequest) (inp : IFStream) (vars : Vars F) (good : inp.failbit = false)
    (all : ∀ item ∈ request, (fileValue (F := F) tempval inp.lines pfx item).isSome) :
    (loadDB tempval pfx request inp vars).err = 0 ∧
      (loadDB tempval pfx request inp vars).vars = stored tempval inp.lines pfx request vars ∧
      (loadDB tempval pfx request inp vars).inp.failbit = false ∧
      (loadDB tempval pfx request inp vars).inp.lines = inp.lines := by
  induction request generalizing inp vars with
  | nil => exact ⟨rfl, rfl, good, rfl⟩
  | cons item rest ih =>
      obtain ⟨v, value⟩ := Option.isSome_iff_exists.mp (all item (List.mem_cons_self ..))
      obtain ⟨inp', good', same, step⟩ := (load_db_step tempval pfx item rest inp vars good).1 v value
      have lines : inp'.lines = inp.lines := congrArg (segments '\n') same
      have later := ih inp' (vars.assign item.var v) good' (fun item' member => by
        rw [lines]
        exact all item' (List.mem_cons_of_mem item member))
      rw [lines] at later
      rw [step, stored, List.foldl_cons, value]
      exact later

theorem load_db_missing (request : List DBRequest) (inp : IFStream) (vars : Vars F) (good : inp.failbit = false)
    (missing : ∃ item ∈ request, fileValue (F := F) tempval inp.lines pfx item = none) :
    (loadDB tempval pfx request inp vars).err ≠ 0 := by
  induction request generalizing inp vars with
  | nil =>
      obtain ⟨item, member, _⟩ := missing
      cases member
  | cons item rest ih =>
      obtain ⟨goesOn, stops⟩ := load_db_step tempval pfx item rest inp vars good
      cases value : fileValue (F := F) tempval inp.lines pfx item with
      | none => exact stops value
      | some v =>
          obtain ⟨inp', good', same, step⟩ := goesOn v value
          have lines : inp'.lines = inp.lines := congrArg (segments '\n') same
          obtain ⟨other, member, none⟩ := missing
          rw [step]
          refine ih inp' (vars.assign item.var v) good' ⟨other, ?_, by rw [lines]; exact none⟩
          cases member with
          | head =>
              rw [value] at none
              cases none
          | tail _ later => exact later

theorem load_db_err_iff (request : List DBRequest) (inp : IFStream) (vars : Vars F) (good : inp.failbit = false) :
    (loadDB tempval pfx request inp vars).err = 0 ↔ ∀ item ∈ request, (fileValue (F := F) tempval inp.lines pfx item).isSome := by
  constructor
  · intro loaded item member
    by_contra none
    exact load_db_missing tempval pfx request inp vars good ⟨item, member, Option.not_isSome_iff_eq_none.mp none⟩ loaded
  · exact fun all => (load_db_all tempval pfx request inp vars good all).1

theorem load_db_iff (request : List DBRequest) (inp : IFStream) (vars : Vars F) (good : inp.failbit = false) :
    ((loadDB tempval pfx request inp vars).err = 0 ∧
      (loadDB tempval pfx request inp vars).vars = stored tempval inp.lines pfx request vars) ↔
    ∀ item ∈ request, (fileValue (F := F) tempval inp.lines pfx item).isSome := by
  have err := load_db_err_iff tempval pfx request inp vars good
  constructor
  · exact fun loaded => err.mp loaded.1
  · intro all
    exact ⟨err.mpr all, (load_db_all tempval pfx request inp vars good all).2.1⟩

def present (lines : List (List Char)) (item : DBRequest) : Prop := fileText lines pfx item ≠ []

-- The optional flag is not honoured: with every other key in the file and
-- every text of the right type, the load goes through exactly when no optional
-- key is missing.
theorem optional_keys_iff (request : List DBRequest) (inp : IFStream) (vars : Vars F) (good : inp.failbit = false)
    (required : ∀ item ∈ request, item.optional = false → present pfx inp.lines item)
    (convertible : ∀ item ∈ request, present pfx inp.lines item →
      (readValue (F := F) item.type (tempval item) (fileText inp.lines pfx item)).isSome) :
    ((loadDB tempval pfx request inp vars).err = 0 ∧
      (loadDB tempval pfx request inp vars).vars = stored tempval inp.lines pfx request vars) ↔
    ∀ item ∈ request, item.optional = true → present pfx inp.lines item := by
  rw [load_db_iff tempval pfx request inp vars good]
  constructor
  · intro all item member _ missing
    have value := all item member
    rw [fileValue, if_pos missing] at value
    cases value
  · intro optional item member
    have found : present pfx inp.lines item := by
      cases flag : item.optional with
      | true => exact optional item member flag
      | false => exact required item member flag
    rw [fileValue, if_neg found]
    exact convertible item member found

theorem module_geo_read_iff (inp : IFStream) (vars : Vars F) (good : inp.failbit = false) :
    (readModuleGeo tempval pfx inp vars).isSome ↔
      ∀ item ∈ geoRequest ++ planeRequest, (fileValue (F := F) tempval inp.lines pfx item).isSome := by
  have box := load_db_err_iff tempval pfx geoRequest inp vars good
  rw [readModuleGeo, List.forall_mem_append, ← box]
  by_cases loaded : (loadDB tempval pfx geoRequest inp vars).err = 0
  · obtain ⟨_, _, good', lines⟩ := load_db_all tempval pfx geoRequest inp vars good (box.mp loaded)
    have plane := load_db_err_iff tempval pfx planeRequest (loadDB tempval pfx geoRequest inp vars).inp
      (loadDB tempval pfx geoRequest inp vars).vars good'
    rw [lines] at plane
    rw [if_pos loaded, ← plane]
    by_cases last : (loadDB tempval pfx planeRequest (loadDB tempval pfx geoRequest inp vars).inp
        (loadDB tempval pfx geoRequest inp vars).vars).err = 0
    · rw [if_pos last]
      exact iff_of_true rfl ⟨loaded, last⟩
    · rw [if_neg last]
      exact iff_of_false Bool.false_ne_true (fun both => last both.2)
  · rw [if_neg loaded]
    exact iff_of_false Bool.false_ne_true (fun both => loaded both.1)

theorem load_db_not_found (item : DBRequest) (request : List DBRequest) (inp : IFStream) (vars : Vars F)
    (good : inp.failbit = false) (missing : ¬ present pfx inp.lines item) :
    (loadDB tempval pfx (item :: request) inp vars).err = 2 := by
  obtain ⟨text, _⟩ := find_key_lines inp (requestKey pfx item) good
  have empty : (findKey inp (requestKey pfx item)).1 = [] := text.trans (not_not.mp missing)
  rw [loadDB]
  simp only [empty, if_pos]

end

end

instance decidable_present (pfx : String) (lines : List (List Char)) (item : DBRequest) : Decidable (present pfx lines item) :=
  inferInstanceAs (Decidable (_ ≠ _))

theorem signal_keys_read :
    let vars : Vars ℝ := ⟨fun _ => 0, fun _ => 0, fun _ => [], fun _ => []⟩
    (loadDB (fun _ => 0) "generalinfo.signal1." signalRequest
      (.opened "generalinfo.signal1.pid = 11\ngeneralinfo.signal1.tid = 1\n".toList) vars).err = 0 := by
  intro vars
  refine ((optional_keys_iff (fun _ => 0) "generalinfo.signal1." signalRequest _ vars rfl ?_ ?_).mpr ?_).1
  · decide
  · decide
  · decide

-- Without the optional tid the load fails, though pid is there and converts.
theorem signal_tid_missing :
    let vars : Vars ℝ := ⟨fun _ => 0, fun _ => 0, fun _ => [], fun _ => []⟩
    (∀ item ∈ signalRequest, item.optional = true) ∧
    (loadDB (fun _ => 0) "generalinfo.signal1." signalRequest (.opened "generalinfo.signal1.pid = 11\n".toList) vars).err = 2 := by
  intro vars
  refine ⟨by decide, ?_⟩
  obtain ⟨inp', good', same, step⟩ := (load_db_step (fun _ => 0) "generalinfo.signal1." ⟨"pid", "pid", .kInt, true⟩
    [⟨"tid", "tid", .kInt, true⟩] (.opened "generalinfo.signal1.pid = 11\n".toList) vars rfl).1 (.int 11) rfl
  have lines : inp'.lines = (IFStream.opened "generalinfo.signal1.pid = 11\n".toList).lines := congrArg (segments '\n') same
  rw [signalRequest, step]
  apply load_db_not_found _ _ _ _ _ _ good'
  rw [lines]
  decide

end Solgem
