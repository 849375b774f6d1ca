import Solgem.RocUnique

set_option autoImplicit false

namespace Solgem

open Lib

variable {F : Type}

theorem uniform_ranges_apart (nmodule : List Int) (n : Int) (uniform : ∀ p, p + 1 < nmodule.length → nmodule[p]? = some n) :
    SlotRangesApart nmodule := by
  intro p q before bound filled _
  have size : nmodule.getD p 0 = n := by
    rw [List.getD_eq_getElem?_getD, uniform p (by omega), Option.getD_some]
  have previous : nmodule.getD (q - 1) 0 = n := by
    rw [List.getD_eq_getElem?_getD, uniform (q - 1) (by omega), Option.getD_some]
  have start : slotStart nmodule p = n * p := by
    by_cases zero : p = 0
    · simp [zero, slotStart]
    · have below : nmodule.getD (p - 1) 0 = n := by
        rw [List.getD_eq_getElem?_getD, uniform (p - 1) (by omega), Option.getD_some]
      rw [slotStart, if_neg zero, below]
  have after : slotStart nmodule q = n * q := by
    rw [slotStart, if_neg (by omega), previous]
  have follows : n * (p + 1) ≤ n * q := Int.mul_le_mul_of_nonneg_left (by omega) (by omega)
  rw [size, start, after]
  left
  rwa [Int.mul_add, Int.mul_one] at follows

theorem key_address (m : DBManager F) (slots : SlotLayout) (s : StripID) (present : s.Exists m) (a : RocAddress)
    (crate : 0 ≤ a.crate) (slot : 0 ≤ a.slot) (top : a.slot < slots.SIM_MAXSLOT) (chan : 0 ≤ a.chan)
    (last : a.chan < m.fChanPerSlot) (same : rocKey m s = makeROCKey m slots a) : s.toROCD m slots = some a := by
  obtain ⟨channels, index⟩ := digit_inj m.fChanPerSlot s.chan a.chan _ _ present.2.2.2.1 present.2.2.2.2 chan last same
  have nonneg : 0 ≤ a.slot + slots.SIM_MAXSLOT * a.crate := by
    have product : 0 ≤ slots.SIM_MAXSLOT * a.crate := Int.mul_nonneg (by have := slots.positive; omega) crate
    omega
  rw [strip_address m slots s present]
  simp only [index, channels]
  have quotient : (a.slot + slots.SIM_MAXSLOT * a.crate).tdiv slots.SIM_MAXSLOT = a.crate := by
    rw [Int.tdiv_eq_ediv_of_nonneg nonneg, Int.add_mul_ediv_left _ _ (by omega), Int.ediv_eq_zero_of_lt slot top,
      Int.zero_add]
  have remainder : (a.slot + slots.SIM_MAXSLOT * a.crate).tmod slots.SIM_MAXSLOT = a.slot := by
    rw [Int.tmod_eq_emod_of_nonneg nonneg, Int.add_mul_emod_self_left, Int.emod_eq_of_lt slot top]
  rw [quotient, remainder]

-- After the strip loop every strip is found under its own address and no
-- other address of the crates is known.
theorem strip_lookup_inverts_loading (info : GeneralInfo) (m : DBManager F)
    (loaded : DBManager.loadGeneralInfo info = some m) (n : Int)
    (uniform : ∀ p, p + 1 < info.nmodule.length → info.nmodule[p]? = some n) (slots : SlotLayout)
    (loadData : RocAddress → Int → Bool) (strips : List (DigiGEMStrip F)) (present : ∀ s ∈ strips, s.id.Exists m)
    (distinct : (strips.map DigiGEMStrip.id).Nodup) :
    (loadStrips m slots loadData strips = .error .hedErr ∧
        ∃ s ∈ strips, ∃ a, s.id.toROCD m slots = some a ∧ ∃ raw ∈ s.fADC.take s.fNsamp, loadData a raw = false) ∨
      ∃ fStripMap, loadStrips m slots loadData strips = .ok fStripMap ∧
        (∀ (i : Nat) (s : DigiGEMStrip F), strips[i]? = some s → ∃ a, s.id.toROCD m slots = some a ∧ stripFromROC m slots fStripMap a = i) ∧
        ∀ a : RocAddress, 0 ≤ a.crate → 0 ≤ a.slot → a.slot < slots.SIM_MAXSLOT → 0 ≤ a.chan → a.chan < m.fChanPerSlot →
          (∀ s ∈ strips, s.id.toROCD m slots ≠ some a) → stripFromROC m slots fStripMap a = -1 := by
  obtain ⟨counts, _⟩ := DBManager.load_general_info_fields info m loaded
  have apart : SlotRangesApart m.fNModule := by
    rw [counts]
    exact uniform_ranges_apart info.nmodule n uniform
  have keys := keys_distinct m slots (addresses_unique_of_apart m slots apart) strips present distinct
  rcases load_strips_outcome m slots loadData [] strips [] present keys indexes_nil with refused | ⟨final, completed, indexes⟩
  · exact .inl refused
  refine .inr ⟨final, completed, ?_, ?_⟩
  · intro i s found
    obtain ⟨a, address, key, _⟩ := strip_key m slots s.id (present s (List.mem_of_getElem? found))
    have entry : final.lookup (rocKey m s.id) = some i := by
      rw [indexes, List.nil_append, List.getElem?_map, found, Option.map_some]
    refine ⟨a, address, ?_⟩
    rw [stripFromROC, key, entry]
  · intro a crate slot top chan last unknown
    have absent : final.lookup (makeROCKey m slots a) = none := by
      rw [indexes_absent final _ indexes, List.nil_append]
      intro member
      obtain ⟨s, listed, same⟩ := List.mem_map.mp member
      exact unknown s listed (key_address m slots s.id (present s listed) a crate slot top chan last same)
    rw [stripFromROC, absent]

theorem strip_lookup_inverts_loading_two_strips :
    ∃ m : DBManager ℝ, DBManager.loadGeneralInfo ⟨5, 2, [3, 2], 128, 1⟩ = some m ∧
      ∃ fStripMap, loadStrips m ⟨30, by decide⟩ (fun _ _ => true) [plainStrip 0 2 1 7, plainStrip 1 1 0 127] = .ok fStripMap ∧
        ∃ a, StripID.toROCD ⟨1, 1, 0, 127⟩ m ⟨30, by decide⟩ = some a ∧ stripFromROC m ⟨30, by decide⟩ fStripMap a = 1 := by
  obtain ⟨m, loaded⟩ : ∃ m : DBManager ℝ, DBManager.loadGeneralInfo ⟨5, 2, [3, 2], 128, 1⟩ = some m := ⟨_, rfl⟩
  obtain ⟨counts, channels, _⟩ := DBManager.load_general_info_fields _ m loaded
  have first : StripID.Exists ⟨0, 2, 1, 7⟩ m := by
    refine ⟨by decide, ⟨3, ?_, by decide, by decide⟩, .inr rfl, by decide, by rw [channels]; decide⟩
    rw [counts]
    rfl
  have second : StripID.Exists ⟨1, 1, 0, 127⟩ m := by
    refine ⟨by decide, ⟨2, ?_, by decide, by decide⟩, .inl rfl, by decide, by rw [channels]; decide⟩
    rw [counts]
    rfl
  have outcome := strip_lookup_inverts_loading ⟨5, 2, [3, 2], 128, 1⟩ m loaded 3
    (by intro p bound; have zero : p = 0 := by { have below : p + 1 < 2 := bound; omega }; rw [zero]; rfl)
    ⟨30, by decide⟩ (fun _ _ => true) [plainStrip 0 2 1 7, plainStrip 1 1 0 127]
    (by
      intro s member
      rcases List.mem_cons.mp member with rfl | rest
      · exact first
      · rw [List.mem_singleton.mp rest]
        exact second)
    (by decide)
  rcases outcome with ⟨_, _, _, _, _, _, _, refused⟩ | ⟨fStripMap, completed, found, _⟩
  · cases refused
  · exact ⟨m, loaded, fStripMap, completed, found 1 (plainStrip 1 1 0 127) rfl⟩

end Solgem
