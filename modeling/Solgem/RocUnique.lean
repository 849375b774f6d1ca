import Mathlib.Data.Real.Basic
import Solgem.RocMap

set_option autoImplicit false

namespace Solgem

open Lib

variable {F : Type}

-- The key of a strip, as one number: the channel below, the slot number above.
def rocKey (m : DBManager F) (s : StripID) : Int :=
  s.chan + m.fChanPerSlot * (s.proj + 2 * (s.module + slotStart m.fNModule s.plane.toNat))

theorem strip_key (m : DBManager F) (slots : SlotLayout) (s : StripID) (present : s.Exists m) :
    ∃ a, s.toROCD m slots = some a ∧ makeROCKey m slots a = rocKey m s ∧ a.chan = s.chan := by
  refine ⟨_, strip_address m slots s present, ?_, rfl⟩
  simp only [makeROCKey, rocKey, Int.tmod_add_mul_tdiv]

theorem roc_key_inj (m : DBManager F) (slots : SlotLayout) (s t : StripID) (present : s.Exists m) (present' : t.Exists m) :
    rocKey m s = rocKey m t ↔ s.toROCD m slots = t.toROCD m slots := by
  rw [strip_address_inj m slots s t present present']
  obtain ⟨_, _, projections, first, last⟩ := present
  obtain ⟨_, _, projections', first', last'⟩ := present'
  constructor
  · intro same
    obtain ⟨chan, index⟩ := digit_inj m.fChanPerSlot s.chan t.chan _ _ first last first' last' same
    omega
  · rintro ⟨proj, module, chan⟩
    rw [rocKey, rocKey, proj, module, chan]

def AddressesUnique (m : DBManager F) (slots : SlotLayout) : Prop :=
  ∀ s t : StripID, s.Exists m → t.Exists m → s.toROCD m slots = t.toROCD m slots → s = t

def NoDuplicateKey (m : DBManager F) (slots : SlotLayout) : Prop :=
  ∀ (loadData : RocAddress → Int → Bool) (strips : List (DigiGEMStrip F)),
    (∀ s ∈ strips, s.id.Exists m) → (strips.map DigiGEMStrip.id).Nodup →
      loadStrips m slots loadData strips ≠ .error .assertFailed

theorem addresses_unique_of_apart (m : DBManager F) (slots : SlotLayout) (apart : SlotRangesApart m.fNModule) :
    AddressesUnique m slots := by
  intro s t present present' same
  obtain ⟨proj, module, chan⟩ := (strip_address_inj m slots s t present present').mp same
  obtain ⟨low, ⟨n, counted, first, last⟩, _⟩ := present
  obtain ⟨low', ⟨n', counted', first', last'⟩, _⟩ := present'
  have bound := (List.getElem?_eq_some_iff.mp counted).1
  have bound' := (List.getElem?_eq_some_iff.mp counted').1
  have size : m.fNModule.getD s.plane.toNat 0 = n := by rw [List.getD_eq_getElem?_getD, counted, Option.getD_some]
  have size' : m.fNModule.getD t.plane.toNat 0 = n' := by rw [List.getD_eq_getElem?_getD, counted', Option.getD_some]
  have plane : s.plane = t.plane := by
    rcases Nat.lt_trichotomy s.plane.toNat t.plane.toNat with before | equal | after
    · have ranges := apart _ _ before bound' (by omega) (by omega)
      rw [size, size'] at ranges
      rcases ranges with left | right <;> omega
    · omega
    · have ranges := apart _ _ after bound (by omega) (by omega)
      rw [size, size'] at ranges
      rcases ranges with left | right <;> omega
  rw [plane] at module
  cases s
  cases t
  simp only [StripID.mk.injEq] at *
  exact ⟨plane, by omega, proj, chan⟩

theorem apart_of_addresses_unique (m : DBManager F) (slots : SlotLayout) (channels : 0 < m.fChanPerSlot)
    (unique : AddressesUnique m slots) : SlotRangesApart m.fNModule := by
  intro p q before bound filled filled'
  have present : ∀ (i : Nat) (j : Int), i < m.fNModule.length → 0 ≤ j → j < m.fNModule.getD i 0 →
      StripID.Exists ⟨i, j, 0, 0⟩ m := by
    intro i j inside low high
    refine ⟨Int.natCast_nonneg i, ⟨m.fNModule.getD i 0, ?_, low, high⟩, .inl rfl, Int.le_refl 0, channels⟩
    rw [Int.toNat_natCast, List.getD_eq_getElem _ _ inside, List.getElem?_eq_getElem inside]
  rw [ranges_apart_iff _ _ _ _ filled filled']
  intro i i' low high low' high' same
  have strips := unique ⟨p, i, 0, 0⟩ ⟨q, i', 0, 0⟩ (present p i (by omega) low high) (present q i' bound low' high')
  have planes := congrArg StripID.plane (strips ((strip_address_inj m slots _ _ (present p i (by omega) low high)
    (present q i' bound low' high')).mpr ⟨rfl, by simp only [Int.toNat_natCast]; omega, rfl⟩))
  have equal : (p : Int) = q := planes
  omega

-- The loop indexes every strip it has passed, or stops at a refused sample.
theorem load_strips_outcome (m : DBManager F) (slots : SlotLayout) (loadData : RocAddress → Int → Bool)
    (done rest : List (DigiGEMStrip F)) (fStripMap : List (Int × Nat)) (present : ∀ s ∈ rest, s.id.Exists m)
    (distinct : ((done ++ rest).map (fun s => rocKey m s.id)).Nodup)
    (indexes : Indexes fStripMap (done.map (fun s => rocKey m s.id))) :
    ((rest.zipIdx done.length).foldlM (loadStrip m slots loadData) fStripMap = .error .hedErr ∧
        ∃ s ∈ rest, ∃ a, s.id.toROCD m slots = some a ∧ ∃ raw ∈ s.fADC.take s.fNsamp, loadData a raw = false) ∨
      ∃ final, (rest.zipIdx done.length).foldlM (loadStrip m slots loadData) fStripMap = .ok final ∧
        Indexes final ((done ++ rest).map (fun s => rocKey m s.id)) := by
  induction rest generalizing done fStripMap with
  | nil => exact .inr ⟨fStripMap, rfl, by simpa using indexes⟩
  | cons s rest ih =>
      obtain ⟨a, address, key, _⟩ := strip_key m slots s.id (present s (List.mem_cons_self ..))
      have located : stripToROCD m slots s.fPlane s.fModule s.fProj s.fChan = some a := address
      by_cases accepted : (s.fADC.take s.fNsamp).all (loadData a) = true
      · have fresh : rocKey m s.id ∉ done.map (fun s => rocKey m s.id) := by
          rw [List.map_append, List.map_cons] at distinct
          have apart := (List.nodup_append.mp distinct).2.2
          intro member
          exact apart _ member _ (List.mem_cons_self ..) rfl
        obtain ⟨next, inserted, indexes'⟩ := insert_new_indexes fStripMap _ indexes _ fresh
        rw [List.length_map] at inserted
        have pass : loadStrip m slots loadData fStripMap (s, done.length) = .ok next := by
          simp only [loadStrip, located, accepted, if_true, key, inserted]
        have step : ((s :: rest).zipIdx done.length).foldlM (loadStrip m slots loadData) fStripMap =
            (rest.zipIdx (done ++ [s]).length).foldlM (loadStrip m slots loadData) next := by
          rw [List.zipIdx_cons, List.foldlM_cons, pass, List.length_append, List.length_singleton]
          rfl
        have split : done ++ s :: rest = (done ++ [s]) ++ rest := by rw [List.append_assoc, List.singleton_append]
        rw [step, split]
        rcases ih (done ++ [s]) next (fun t member => present t (List.mem_cons_of_mem s member)) (split ▸ distinct)
          (by simpa using indexes') with ⟨refused, t, member, reason⟩ | completed
        · exact .inl ⟨refused, t, List.mem_cons_of_mem s member, reason⟩
        · exact .inr completed
      · have pass : loadStrip m slots loadData fStripMap (s, done.length) = .error .hedErr := by
          simp only [loadStrip, located, accepted, if_false, Bool.false_eq_true]
        refine .inl ⟨?_, s, List.mem_cons_self .., a, address, ?_⟩
        · rw [List.zipIdx_cons, List.foldlM_cons, pass]
          rfl
        · simpa using accepted

theorem keys_distinct (m : DBManager F) (slots : SlotLayout) (unique : AddressesUnique m slots)
    (strips : List (DigiGEMStrip F)) (present : ∀ s ∈ strips, s.id.Exists m)
    (distinct : (strips.map DigiGEMStrip.id).Nodup) : (strips.map (fun s => rocKey m s.id)).Nodup := by
  have keys : strips.map (fun s => rocKey m s.id) = (strips.map DigiGEMStrip.id).map (rocKey m) := by
    rw [List.map_map]
    rfl
  rw [keys]
  apply List.Nodup.map_on _ distinct
  intro i first j second same
  obtain ⟨s, member, rfl⟩ := List.mem_map.mp first
  obtain ⟨t, member', rfl⟩ := List.mem_map.mp second
  exact unique _ _ (present s member) (present t member')
    ((roc_key_inj m slots _ _ (present s member) (present t member')).mp same)

theorem no_duplicate_key_of_unique (m : DBManager F) (slots : SlotLayout) (unique : AddressesUnique m slots) :
    NoDuplicateKey m slots := by
  intro loadData strips present distinct
  have keys := keys_distinct m slots unique strips present distinct
  rcases load_strips_outcome m slots loadData [] strips [] present keys indexes_nil with ⟨refused, _⟩ | ⟨_, completed, _⟩
  · intro failed
    cases refused.symm.trans failed
  · intro failed
    cases completed.symm.trans failed

-- The addresses are unique exactly when the ranges of slots of different
-- planes do not overlap.
theorem addresses_unique_iff_ranges_apart (info : GeneralInfo) (m : DBManager F)
    (loaded : DBManager.loadGeneralInfo info = some m) (slots : SlotLayout) :
    AddressesUnique m slots ∧ NoDuplicateKey m slots ↔
      SlotRangesApart info.nmodule ∨ info.chan_per_slot ≤ 0 := by
  obtain ⟨counts, channels, _⟩ := DBManager.load_general_info_fields info m loaded
  rw [← counts, ← channels]
  constructor
  · rintro ⟨unique, _⟩
    by_cases none : m.fChanPerSlot ≤ 0
    · exact .inr none
    · exact .inl (apart_of_addresses_unique m slots (by omega) unique)
  · intro condition
    have unique : AddressesUnique m slots := by
      cases condition with
      | inl apart => exact addresses_unique_of_apart m slots apart
      | inr none =>
          intro s t present
          have first := present.2.2.2
          omega
    exact ⟨unique, no_duplicate_key_of_unique m slots unique⟩

theorem addresses_unique_iff_ranges_apart_two_planes :
    ∃ m : DBManager ℝ, DBManager.loadGeneralInfo ⟨5, 2, [3, 2], 128, 1⟩ = some m ∧
      AddressesUnique m ⟨30, by decide⟩ ∧ NoDuplicateKey m ⟨30, by decide⟩ := by
  refine ⟨_, rfl, (addresses_unique_iff_ranges_apart ⟨5, 2, [3, 2], 128, 1⟩ _ rfl ⟨30, by decide⟩).mpr (.inl ?_)⟩
  intro p q before bound _ _
  have planes : p = 0 ∧ q = 1 := by
    have below : q < 2 := bound
    omega
  obtain ⟨rfl, rfl⟩ := planes
  exact .inl (by decide)

-- With 2, 1 and 1 modules the slots of the third plane begin at 1 * 2, which
-- is also where those of the second plane begin.
def plainStrip (plane module proj chan : Int) : DigiGEMStrip ℝ :=
  { fSector := 0, fPlane := plane, fModule := module, fProj := proj, fChan := chan, fSigType := 0, fCharge := 0,
    fTime1 := 0, fNsamp := 1, fADC := [100], fClusters := [], fClusterRatio := [[]], fStripWeightInCluster := [] }

theorem addresses_collide_two_one_one :
    ∃ m : DBManager ℝ, DBManager.loadGeneralInfo ⟨4, 3, [2, 1, 1], 128, 1⟩ = some m ∧
      StripID.Exists ⟨1, 0, 0, 5⟩ m ∧ StripID.Exists ⟨2, 0, 0, 5⟩ m ∧
      StripID.toROCD ⟨1, 0, 0, 5⟩ m ⟨30, by decide⟩ = StripID.toROCD ⟨2, 0, 0, 5⟩ m ⟨30, by decide⟩ ∧
      ¬ AddressesUnique m ⟨30, by decide⟩ ∧
      loadStrips m ⟨30, by decide⟩ (fun _ _ => true) [plainStrip 1 0 0 5, plainStrip 2 0 0 5] = .error .assertFailed := by
  obtain ⟨m, loaded⟩ : ∃ m : DBManager ℝ, DBManager.loadGeneralInfo ⟨4, 3, [2, 1, 1], 128, 1⟩ = some m := ⟨_, rfl⟩
  obtain ⟨counts, channels, _⟩ := DBManager.load_general_info_fields _ m loaded
  have first : StripID.Exists ⟨1, 0, 0, 5⟩ m := by
    refine ⟨by decide, ⟨1, ?_, by decide, by decide⟩, .inl rfl, by decide, by rw [channels]; decide⟩
    rw [counts]
    rfl
  have second : StripID.Exists ⟨2, 0, 0, 5⟩ m := by
    refine ⟨by decide, ⟨1, ?_, by decide, by decide⟩, .inl rfl, by decide, by rw [channels]; decide⟩
    rw [counts]
    rfl
  have same : StripID.toROCD ⟨1, 0, 0, 5⟩ m ⟨30, by decide⟩ = StripID.toROCD ⟨2, 0, 0, 5⟩ m ⟨30, by decide⟩ := by
    refine (strip_address_inj m _ _ _ first second).mpr ⟨rfl, ?_, rfl⟩
    rw [counts]
    decide
  refine ⟨m, loaded, first, second, same, ?_, ?_⟩
  · intro unique
    exact absurd (unique _ _ first second same) (by decide)
  · simp [loadStrips, loadStrip, plainStrip, stripToROCD, DBManager.getNModule, counts, channels, insertNew, makeROCKey,
      Except.bind, bind]

end Solgem
