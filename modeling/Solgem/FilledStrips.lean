import Solgem.Bench
import Solgem.DigitizerStep
import Solgem.TreeEvent
import Solgem.TreeStrips

set_option autoImplicit false

namespace Solgem

open Lib

variable {F : Type}

-- Where the two stores stand: the strip list shows the planes, or the planes
-- changed and the flag says so, or the list was emptied behind the flag's back.
inductive StripMode where
  | filled
  | dirty
  | lost
deriving DecidableEq

def StripMode.after : StripMode → Call F → StripMode
  | _, .digitize gdata => if gdata.fHitData.isEmpty then lost else dirty
  | m, .additiveDigitize gdata => if gdata.fHitData.isEmpty then m else dirty
  | _, .noDigitize _ => filled
  | dirty, .setTreeEvent _ _ _ => dirty
  | _, .setTreeEvent _ _ _ => lost
  | _, .setTreeStrips => filled
  | lost, .fillTree => lost
  | _, .fillTree => filled

-- A new digitizer says it is filled, with an empty strip list.
def modeAfter (calls : List (Call F)) : StripMode := calls.foldl StripMode.after .lost

variable [Arith F]

def StripMode.Holds (rng : Rng F) (su : Setup F) (d : Digitizer F) : StripMode → Prop
  | filled => d.fFilledStrips = true ∧ Shows rng su d.fDP d.fEvent.fGEMStrips
  | dirty => d.fFilledStrips = false
  | lost => d.fFilledStrips = true ∧ d.fEvent.fGEMStrips = []

section
variable {rng : Rng F} {fails : Fault → Prop}

open StripMode

theorem additive_digitize_mode (su : Setup F) (d : Digitizer F) (gdata : SimHitData F) (m : StripMode)
    (holds : Holds rng su d m) (any : ∀ fault, fails fault) (st : rng.State) :
    Ensures fails (fun d' _ => Holds rng su d' (if gdata.fHitData.isEmpty then m else dirty))
      ((d.additiveDigitize su gdata : Draw rng _) st) := by
  refine ensures_mono _ _ ?_ _ (Digitizer.additive_digitize_ensures su d gdata st (fun _ _ => True) trivial
    (fun _ _ _ _ _ _ _ => ensures_of_ok _ _ any (fun _ _ _ => trivial)))
  rintro d' _ (⟨empty, same⟩ | ⟨some_hit, looped, _, cleared⟩)
  · rw [empty, same]
    exact holds
  · rw [cleared]
    cases hits : gdata.fHitData with
    | nil => exact absurd hits some_hit
    | cons h rest => exact rfl

theorem set_tree_strips_mode (su : Setup F) (d : Digitizer F) (any : ∀ fault, fails fault) (st : rng.State) :
    Ensures fails (fun d' _ => Holds rng su d' filled) ((d.setTreeStrips su : Draw rng _) st) := by
  refine ensures_mono _ _ ?_ _ (Digitizer.set_tree_strips_shows su d (fun _ => any _) st)
  rintro d' _ ⟨records, shows, rfl⟩
  exact ⟨rfl, shows⟩

theorem call_keeps_mode (su : Setup F) (d : Digitizer F) (m : StripMode) (holds : Holds rng su d m) (c : Call F)
    (any : ∀ fault, fails fault) (st : rng.State) :
    Ensures fails (fun d' _ => Holds rng su d' (m.after c)) ((c.apply su d : Draw rng _) st) := by
  cases c with
  | digitize gdata => exact additive_digitize_mode su d.clearAll gdata lost ⟨rfl, rfl⟩ any st
  | additiveDigitize gdata => exact additive_digitize_mode su d gdata m holds any st
  | noDigitize gdata => exact set_tree_strips_mode su _ any st
  | setTreeStrips => exact set_tree_strips_mode su d any st
  | setTreeEvent tsgd f evnum =>
      refine ensures_mono _ _ ?_ _ (Digitizer.set_tree_event_ensures su d tsgd f evnum st)
      rintro d' _ ⟨e, ecal, scint, rfl, event⟩
      cases m with
      | filled => exact ⟨holds.1, event.strips⟩
      | dirty => exact holds
      | lost => exact ⟨holds.1, event.strips⟩
  | fillTree =>
      refine Digitizer.fill_tree_ensures su d (fun _ => any _) st _ (fun flag => ?_) (fun flag records shows => ?_)
      · cases m with
        | filled => exact holds
        | dirty => exact absurd flag (by rw [show d.fFilledStrips = false from holds]; decide)
        | lost => exact holds
      · cases m with
        | filled => exact ⟨rfl, shows⟩
        | dirty => exact ⟨rfl, shows⟩
        | lost => exact absurd holds.1 (by rw [flag]; decide)

theorem run_keeps_mode (su : Setup F) (ion : IonState F) (fOTree : Option (List (SimEvent F))) (calls : List (Call F))
    (st : rng.State) :
    Ensures (fun _ => True) (fun d _ => Holds rng su d (modeAfter calls))
      ((calls.foldlM (Call.apply su) (Digitizer.new su ion fOTree) : Draw rng _) st) := by
  refine ensures_foldlM _ (fun past d _ => Holds rng su d (modeAfter past)) [] calls ?_ _ st ⟨rfl, rfl⟩
  intro past c d s _ holds
  rw [modeAfter, List.foldl_append]
  exact call_keeps_mode su d _ holds c (fun _ => trivial) s

end

theorem shows_nil (rng : Rng F) (su : Setup F) (fDP : Nat → Fin 2 → DigitizedPlane F) :
    Shows rng su fDP [] ↔ Digitizer.strips su fDP = [] := by
  rw [Shows, List.forall₂_nil_right_iff]

-- At the moment FillTree writes, the strip list shows the planes exactly when
-- it was not emptied since it was last filled or the flag last cleared.
theorem written_strips_iff (rng : Rng F) (su : Setup F) (ion : IonState F) (fOTree : Option (List (SimEvent F)))
    (calls : List (Call F)) (d d' : Digitizer F) (st st' st'' : rng.State)
    (ran : (calls.foldlM (Call.apply su) (Digitizer.new su ion fOTree) : Draw rng _) st = .ok (d, st'))
    (wrote : (d.fillTree su : Draw rng _) st' = .ok (d', st'')) :
    d'.fOTree = d.fOTree.map (fun events => events ++ [d'.fEvent]) ∧ d'.fDP = d.fDP ∧
      (Shows rng su d'.fDP d'.fEvent.fGEMStrips ↔ modeAfter calls ≠ .lost ∨ Digitizer.strips su d.fDP = []) ∧
      ((d.fFilledStrips = true → Shows rng su d.fDP d.fEvent.fGEMStrips) ↔
        modeAfter calls ≠ .lost ∨ Digitizer.strips su d.fDP = []) := by
  have mode := ensures_ok _ d st' _ (run_keeps_mode su ion fOTree calls st) ran
  have frame : Ensures (fun _ => True) (fun d' _ => d'.fOTree = d.fOTree.map (fun events => events ++ [d'.fEvent]) ∧
      d'.fDP = d.fDP) ((d.fillTree su : Draw rng _) st') := by
    exact Digitizer.fill_tree_ensures su d (fun _ => trivial) st' _ (fun _ => ⟨rfl, rfl⟩) (fun _ _ _ => ⟨rfl, rfl⟩)
  obtain ⟨tree, planes⟩ := ensures_ok _ d' st'' _ frame wrote
  have after := ensures_ok _ d' st'' _ (call_keeps_mode su d _ mode .fillTree (fun _ => trivial) st') wrote
  refine ⟨tree, planes, ?_, ?_⟩
  · cases known : modeAfter calls with
    | filled =>
        rw [known] at after
        exact iff_of_true after.2 (.inl (by decide))
    | dirty =>
        rw [known] at after
        exact iff_of_true after.2 (.inl (by decide))
    | lost =>
        rw [known] at after
        rw [after.2, shows_nil, planes]
        simp
  · cases known : modeAfter calls with
    | filled =>
        rw [known] at mode
        exact iff_of_true (fun _ => mode.2) (.inl (by decide))
    | dirty =>
        rw [known] at mode
        refine iff_of_true (fun flag => ?_) (.inl (by decide))
        rw [show d.fFilledStrips = false from mode] at flag
        cases flag
    | lost =>
        rw [known] at mode
        rw [mode.2, shows_nil]
        simp [mode.1]

theorem written_strips_iff_empty_event :
    let su := bench 1 1
    let d := (Digitizer.new su unwritten (some [])).clearAll
    d.writeEvent.fOTree = d.fOTree.map (fun events => events ++ [d.writeEvent.fEvent]) ∧ d.writeEvent.fDP = d.fDP ∧
      (Shows (Rng.scripted ℝ) su d.writeEvent.fDP d.writeEvent.fEvent.fGEMStrips ↔
        modeAfter [Call.digitize (⟨0, 0, 0, []⟩ : SimHitData ℝ)] ≠ .lost ∨ Digitizer.strips su d.fDP = []) ∧
      ((d.fFilledStrips = true → Shows (Rng.scripted ℝ) su d.fDP d.fEvent.fGEMStrips) ↔
        modeAfter [Call.digitize (⟨0, 0, 0, []⟩ : SimHitData ℝ)] ≠ .lost ∨ Digitizer.strips su d.fDP = []) :=
  written_strips_iff (Rng.scripted ℝ) (bench 1 1) unwritten (some []) [Call.digitize ⟨0, 0, 0, []⟩] _ _ [] [] [] rfl rfl

-- Digitize without a hit, then FillTree: the event is written with no strip
-- record, although the chamber has a strip in either direction.
theorem empty_event_written_without_strips :
    ∃ d d' : Digitizer ℝ,
      ([Call.digitize ⟨0, 0, 0, []⟩].foldlM (Call.apply (bench 1 1)) (Digitizer.new (bench 1 1) unwritten (some [])) :
        Draw (Rng.scripted ℝ) _) [] = .ok (d, []) ∧
      (d.fillTree (bench 1 1) : Draw (Rng.scripted ℝ) _) [] = .ok (d', []) ∧ d'.fOTree = some [d'.fEvent] ∧
      d.fFilledStrips = true ∧ ¬ Shows (Rng.scripted ℝ) (bench 1 1) d.fDP d.fEvent.fGEMStrips ∧
      ¬ Shows (Rng.scripted ℝ) (bench 1 1) d'.fDP d'.fEvent.fGEMStrips := by
  have strip : ((0, 0, 0) : Nat × Fin 2 × Nat) ∈
      Digitizer.strips (bench 1 1) (Digitizer.new (bench 1 1) unwritten (some [])).clearAll.fDP :=
    (Digitizer.mem_strips _ _ _).mpr ⟨Nat.one_pos, Nat.one_pos⟩
  have missing : ¬ Shows (Rng.scripted ℝ) (bench 1 1) (Digitizer.new (bench 1 1) unwritten (some [])).clearAll.fDP [] := by
    rw [shows_nil]
    exact List.ne_nil_of_mem strip
  exact ⟨_, _, rfl, rfl, rfl, rfl, missing, missing⟩

end Solgem
