import Mathlib.Tactic.FieldSimp
import Mathlib.Tactic.NormNum
import Mathlib.Tactic.Positivity
import Solgem.ExactArith
import Solgem.Lib.Interpolation

set_option autoImplicit false

namespace Solgem

open Lib

section
variable {F : Type} [Arith F]

structure ShowerProfile (F : Type) where
  nbins_mom : Int
  xmin : F
  xmax : F
  frac : List F
deriving DecidableEq

structure ShowerTables (F : Type) where
  profxdefault : ShowerProfile F
  profydefault : ShowerProfile F
  profx_nbins : Int
  profy_nbins : Int
  profx_xmin : F
  profx_xmax : F
  profy_ymin : F
  profy_ymax : F
  profx : List (ShowerProfile F)
  profy : List (ShowerProfile F)
deriving DecidableEq

def ECAL_max_cell_size : F := 0.042
def X0_ECAL : F := 0.0274
def Ec_ECAL : F := 0.015

-- The profile of the position, the default one outside of the table.
def chooseProfile (default : ShowerProfile F) (nbins : Int) (low high : F) (profiles : List (ShowerProfile F)) (max : F) :
    Option (ShowerProfile F) :=
  let bin := Arith.trunc ((100.0 * max - low) / (high - low) * Arith.ofInt nbins)
  if 0 ≤ bin ∧ bin < nbins then profiles[bin.toNat]? else some default

def ShowerTables.proftempx (t : ShowerTables F) (xmax : F) : Option (ShowerProfile F) :=
  chooseProfile t.profxdefault t.profx_nbins t.profx_xmin t.profx_xmax t.profx xmax

def ShowerTables.proftempy (t : ShowerTables F) (ymax : F) : Option (ShowerProfile F) :=
  chooseProfile t.profydefault t.profy_nbins t.profy_ymin t.profy_ymax t.profy ymax

-- The moment in bins of the table.
def ShowerProfile.scaled (p : ShowerProfile F) (mom : F) : F := (mom - p.xmin) / (p.xmax - p.xmin) * Arith.ofInt p.nbins_mom

-- None where the fractions are read out of range.
def ShowerProfile.coordinate (p : ShowerProfile F) (mom max : F) : Option F :=
  let binmom := Arith.trunc (p.scaled mom)
  if binmom < 0 then some (max - 0.5 * ECAL_max_cell_size)
  else if binmom < p.nbins_mom then do
    let binwidth := (p.xmax - p.xmin) / Arith.ofInt p.nbins_mom
    let flo ← p.frac[binmom.toNat]?
    let fhi ← p.frac[binmom.toNat + 1]?
    let xlo := p.xmin + Arith.ofInt binmom * binwidth
    let f := flo + (fhi - flo) * (mom - xlo) / binwidth
    some (max + (f - 0.5) * ECAL_max_cell_size)
  else some (max + 0.5 * ECAL_max_cell_size)

-- The coordinates before the incident-angle correction.
def cellCoordinates (t : ShowerTables F) (xmom ymom xmax ymax : F) : Option (F × F) := do
  let proftempx ← t.proftempx xmax
  let xclust ← proftempx.coordinate xmom xmax
  let proftempy ← t.proftempy ymax
  let yclust ← proftempy.coordinate ymom ymax
  some (xclust, yclust)

def calcShowerCoordinates (log : F → F) (t : ShowerTables F) (xmom ymom xmax ymax Eclust Rcal : F) : Option (F × F) := do
  let depth := tmax 0.0 (X0_ECAL * (log (Eclust / Ec_ECAL) - 0.5))
  let (xclust, yclust) ← cellCoordinates t xmom ymom xmax ymax
  let xptemp := xclust / Rcal
  let yptemp := yclust / Rcal
  let dz := depth / Arith.sqrt (1.0 + xptemp * xptemp + yptemp * yptemp)
  some (xclust - dz * xptemp, yclust - dz * yptemp)

end

-- A table of fractions that rises from 0 to 1.
structure ShowerProfile.Valid (p : ShowerProfile ℝ) : Prop where
  bins : 1 ≤ p.nbins_mom
  limits : p.xmin < p.xmax
  entries : (p.frac.length : Int) = p.nbins_mom + 1
  rises : p.frac.Pairwise (· ≤ ·)
  first : p.frac.head? = some 0
  last : p.frac.getLast? = some 1

structure ShowerTables.Valid (t : ShowerTables ℝ) : Prop where
  xdefault : t.profxdefault.Valid
  ydefault : t.profydefault.Valid
  xbins : t.profx_nbins ≤ t.profx.length
  ybins : t.profy_nbins ≤ t.profy.length
  x : ∀ p ∈ t.profx, p.Valid
  y : ∀ p ∈ t.profy, p.Valid

-- The table continued by its ends to all whole numbers.
noncomputable def ShowerProfile.fraction (p : ShowerProfile ℝ) (k : ℤ) : ℝ :=
  if k ≤ 0 then 0 else if p.nbins_mom ≤ k then 1 else p.frac.getD k.toNat 0

section
variable {p : ShowerProfile ℝ}

theorem fraction_entry (valid : p.Valid) (k : Nat) (inside : (k : Int) ≤ p.nbins_mom) : p.frac[k]? = some (p.fraction k) := by
  have entries := valid.entries
  have bins := valid.bins
  have room : k < p.frac.length := by omega
  rw [ShowerProfile.fraction]
  split
  · have zero : k = 0 := by omega
    rw [zero, ← List.head?_eq_getElem?]
    exact valid.first
  · split
    · have last : k = p.frac.length - 1 := by omega
      rw [last, ← List.getLast?_eq_getElem?]
      exact valid.last
    · rw [Int.toNat_natCast, List.getD_eq_getElem?_getD, List.getElem?_eq_getElem room, Option.getD_some]

theorem entry_order (valid : p.Valid) (i j : Nat) (before : i ≤ j) (inside : (j : Int) ≤ p.nbins_mom) :
    p.fraction i ≤ p.fraction j := by
  have atI := fraction_entry valid i (by omega)
  have atJ := fraction_entry valid j inside
  obtain ⟨roomI, entryI⟩ := List.getElem?_eq_some_iff.mp atI
  obtain ⟨roomJ, entryJ⟩ := List.getElem?_eq_some_iff.mp atJ
  cases before.lt_or_eq with
  | inl less =>
      rw [← entryI, ← entryJ]
      exact List.pairwise_iff_getElem.mp valid.rises i j roomI roomJ less
  | inr same => rw [same]

theorem fraction_bounds (valid : p.Valid) (k : ℤ) : 0 ≤ p.fraction k ∧ p.fraction k ≤ 1 := by
  have bins := valid.bins
  by_cases low : k ≤ 0
  · rw [ShowerProfile.fraction, if_pos low]
    exact ⟨le_rfl, zero_le_one⟩
  · by_cases high : p.nbins_mom ≤ k
    · rw [ShowerProfile.fraction, if_neg low, if_pos high]
      exact ⟨zero_le_one, le_rfl⟩
    · have above := entry_order valid 0 k.toNat (Nat.zero_le _) (by omega)
      have below := entry_order valid k.toNat p.nbins_mom.toNat (by omega) (by omega)
      rw [Int.toNat_of_nonneg (by omega)] at above below
      rw [Int.toNat_of_nonneg (by omega)] at below
      have first : p.fraction (0 : Nat) = 0 := if_pos (le_refl 0)
      have last : p.fraction p.nbins_mom = 1 := by
        rw [ShowerProfile.fraction, if_neg (by omega), if_pos le_rfl]
      rw [first] at above
      rw [last] at below
      exact ⟨above, below⟩

theorem fraction_rises (valid : p.Valid) (k k' : ℤ) (before : k ≤ k') : p.fraction k ≤ p.fraction k' := by
  by_cases low : k ≤ 0
  · rw [ShowerProfile.fraction, if_pos low]
    exact (fraction_bounds valid k').1
  · by_cases high : p.nbins_mom ≤ k'
    · have last : p.fraction k' = 1 := by rw [ShowerProfile.fraction, if_neg (by omega), if_pos high]
      rw [last]
      exact (fraction_bounds valid k).2
    · have order := entry_order valid k.toNat k'.toNat (by omega) (by omega)
      rw [Int.toNat_of_nonneg (by omega), Int.toNat_of_nonneg (by omega)] at order
      exact order

theorem width_pos (valid : p.Valid) : 0 < (p.xmax - p.xmin) / (p.nbins_mom : ℝ) := by
  have bins : (0 : ℝ) < p.nbins_mom := by exact_mod_cast lt_of_lt_of_le zero_lt_one valid.bins
  exact div_pos (sub_pos.mpr valid.limits) bins

theorem bin_offset (valid : p.Valid) (mom : ℝ) (k : ℤ) :
    (mom - (p.xmin + k * ((p.xmax - p.xmin) / (p.nbins_mom : ℝ)))) / ((p.xmax - p.xmin) / (p.nbins_mom : ℝ)) = p.scaled mom - k := by
  have bins : (p.nbins_mom : ℝ) ≠ 0 := by
    have some_bins := valid.bins
    exact_mod_cast (show p.nbins_mom ≠ 0 by omega)
  have limits : p.xmax - p.xmin ≠ 0 := (sub_pos.mpr valid.limits).ne'
  change _ = (mom - p.xmin) / (p.xmax - p.xmin) * (p.nbins_mom : ℝ) - k
  field_simp
  ring

theorem scaled_mono (valid : p.Valid) : Monotone p.scaled := by
  intro mom mom' before
  have first := bin_offset valid mom 0
  have second := bin_offset valid mom' 0
  have order := div_le_div_of_nonneg_right (sub_le_sub_right before (p.xmin + (0 : ℤ) * ((p.xmax - p.xmin) / (p.nbins_mom : ℝ))))
    (width_pos valid).le
  rw [first, second, Int.cast_zero, sub_zero, sub_zero] at order
  exact order

theorem coordinate_bin (valid : p.Valid) (mom max : ℝ) (k : Nat) (bin : Arith.trunc (p.scaled mom) = (k : Int))
    (inside : (k : Int) < p.nbins_mom) :
    p.coordinate mom max =
      some (max + (p.fraction k + (p.fraction (k + 1) - p.fraction k) * (p.scaled mom - k) - 0.5) * ECAL_max_cell_size) := by
  have flo := fraction_entry valid k inside.le
  have fhi := fraction_entry valid (k + 1) (by omega)
  have offset := bin_offset valid mom k
  simp only [ShowerProfile.coordinate, bin]
  rw [if_neg (by omega), if_pos inside, Int.toNat_natCast, flo, fhi]
  simp only [Option.bind_eq_bind, Option.bind_some, mul_div_assoc]
  change some (max + (_ + _ * ((mom - (p.xmin + (k : ℤ) * ((p.xmax - p.xmin) / (p.nbins_mom : ℝ)))) /
    ((p.xmax - p.xmin) / (p.nbins_mom : ℝ))) - 0.5) * ECAL_max_cell_size) = _
  rw [offset]
  push_cast
  rfl

-- What the table and its two ends say of a moment.
noncomputable def ShowerProfile.ideal (p : ShowerProfile ℝ) (mom max : ℝ) : ℝ :=
  max + (interpolate p.fraction (p.scaled mom) - 0.5) * ECAL_max_cell_size

theorem coordinate_below (mom max : ℝ) (below : p.scaled mom ≤ -1) :
    p.coordinate mom max = some (p.ideal mom max) := by
  have neg : p.scaled mom < 0 := by linarith
  have bin : (Arith.trunc (p.scaled mom) : ℤ) < 0 := by
    rw [trunc_of_neg _ neg]
    have up : ⌈p.scaled mom⌉ ≤ -1 := Int.ceil_le.mpr (by exact_mod_cast below)
    omega
  have floor : ⌊p.scaled mom⌋ < 0 := Int.floor_lt.mpr (by exact_mod_cast neg)
  have flat : interpolate p.fraction (p.scaled mom) = 0 := interpolate_flat _ _ (if_pos (by omega)) (if_pos (by omega))
  rw [ShowerProfile.ideal, flat, ShowerProfile.coordinate]
  simp only [if_pos bin]
  rw [zero_sub, neg_mul, ← sub_eq_add_neg]

theorem coordinate_from_zero (valid : p.Valid) (mom max : ℝ) (from_zero : 0 ≤ p.scaled mom) :
    p.coordinate mom max = some (p.ideal mom max) := by
  have bin := trunc_of_nonneg _ from_zero
  have floor : 0 ≤ ⌊p.scaled mom⌋ := Int.floor_nonneg.mpr from_zero
  by_cases inside : ⌊p.scaled mom⌋ < p.nbins_mom
  · have whole : ((⌊p.scaled mom⌋.toNat : Nat) : ℤ) = ⌊p.scaled mom⌋ := Int.toNat_of_nonneg floor
    have read := coordinate_bin valid mom max ⌊p.scaled mom⌋.toNat (by rw [bin, whole]) (by rw [whole]; exact inside)
    have cast : ((⌊p.scaled mom⌋.toNat : Nat) : ℝ) = ⌊p.scaled mom⌋ := by exact_mod_cast whole
    rw [whole, cast] at read
    exact read
  · have bins := valid.bins
    have flat : interpolate p.fraction (p.scaled mom) = 1 := by
      apply interpolate_flat
      · rw [ShowerProfile.fraction, if_neg (by omega), if_pos (by omega)]
      · rw [ShowerProfile.fraction, if_neg (by omega), if_pos (by omega)]
    rw [ShowerProfile.ideal, flat, ShowerProfile.coordinate]
    simp only [bin]
    rw [if_neg (by omega), if_neg inside]
    norm_num

-- The cast takes moments of the last bin before the table into its first bin.
theorem coordinate_gap (valid : p.Valid) (mom max : ℝ) (above : -1 < p.scaled mom) (neg : p.scaled mom < 0) :
    p.coordinate mom max = some (max + (p.fraction 1 * p.scaled mom - 0.5) * ECAL_max_cell_size) := by
  have bin : (Arith.trunc (p.scaled mom) : ℤ) = (0 : Nat) := by
    rw [trunc_of_neg _ neg]
    exact Int.ceil_eq_iff.mpr ⟨by push_cast; linarith, by push_cast; exact neg.le⟩
  have bins := valid.bins
  have read := coordinate_bin valid mom max 0 bin (by omega)
  have zero : p.fraction (0 : Nat) = 0 := if_pos (le_refl 0)
  rw [zero] at read
  simpa using read

-- The moment is not in the last bin before the table, or that bin is flat.
def ShowerProfile.Meets (p : ShowerProfile ℝ) (mom : ℝ) : Prop :=
  -1 < p.scaled mom → p.scaled mom < 0 → p.frac[1]? = some 0

theorem coordinate_meets (valid : p.Valid) (mom max : ℝ) (meets : p.Meets mom) : p.coordinate mom max = some (p.ideal mom max) := by
  by_cases below : p.scaled mom ≤ -1
  · exact coordinate_below mom max below
  · by_cases from_zero : 0 ≤ p.scaled mom
    · exact coordinate_from_zero valid mom max from_zero
    · have bins := valid.bins
      have flat := meets (not_le.mp below) (not_le.mp from_zero)
      have entry := fraction_entry valid 1 (by exact_mod_cast bins)
      rw [flat, Option.some_inj] at entry
      have floor : ⌊p.scaled mom⌋ < 0 := Int.floor_lt.mpr (by exact_mod_cast not_le.mp from_zero)
      have nothing : interpolate p.fraction (p.scaled mom) = 0 := interpolate_flat _ _ (if_pos (by omega)) (if_pos (by omega))
      rw [coordinate_gap valid mom max (not_le.mp below) (not_le.mp from_zero), ShowerProfile.ideal, nothing,
        show p.fraction 1 = 0 from entry.symm, zero_mul]

def InCell (max c : ℝ) : Prop := max - 0.5 * ECAL_max_cell_size ≤ c ∧ c ≤ max + 0.5 * ECAL_max_cell_size

theorem cell_size_pos : (0 : ℝ) < ECAL_max_cell_size := by
  rw [ECAL_max_cell_size]
  norm_num

theorem ideal_in_cell (valid : p.Valid) (mom max : ℝ) : InCell max (p.ideal mom max) := by
  obtain ⟨low, high⟩ := interpolate_bounds (fraction_rises valid) 0 1 (fraction_bounds valid) (p.scaled mom)
  have size := cell_size_pos
  have above := mul_le_mul_of_nonneg_right low size.le
  have below := mul_le_mul_of_nonneg_right high size.le
  have half : (0.5 : ℝ) = 1 / 2 := by norm_num
  rw [ShowerProfile.ideal, InCell, half]
  constructor <;> linarith

theorem ideal_mono (valid : p.Valid) (mom mom' max : ℝ) (order : mom ≤ mom') : p.ideal mom max ≤ p.ideal mom' max := by
  have rises := interpolate_monotone (fraction_rises valid) (scaled_mono valid order)
  exact add_le_add_right (mul_le_mul_of_nonneg_right (sub_le_sub_right rises _) cell_size_pos.le) max

theorem coordinate_read (valid : p.Valid) (mom max : ℝ) : ∃ c, p.coordinate mom max = some c ∧ (InCell max c ↔ p.Meets mom) := by
  by_cases meets : p.Meets mom
  · exact ⟨_, coordinate_meets valid mom max meets, fun _ => meets, fun _ => ideal_in_cell valid mom max⟩
  · have bins := valid.bins
    simp only [ShowerProfile.Meets, not_forall] at meets
    obtain ⟨above, neg, step⟩ := meets
    refine ⟨_, coordinate_gap valid mom max above neg, ?_, fun meets => absurd (meets above neg) step⟩
    intro cell
    have entry := fraction_entry valid 1 (by exact_mod_cast bins)
    have risen : 0 < p.fraction 1 := by
      refine lt_of_le_of_ne (fraction_bounds valid 1).1 fun zero => step ?_
      rw [zero]
      exact entry
    have less := mul_pos_of_neg_of_neg (mul_neg_of_pos_of_neg risen neg) (neg_lt_zero.mpr cell_size_pos)
    have low := cell.1
    linarith

theorem coordinate_exactly (valid : p.Valid) (mom mom' max : ℝ) (order : mom ≤ mom') :
    ∃ c c', p.coordinate mom max = some c ∧ p.coordinate mom' max = some c' ∧
      (InCell max c ∧ InCell max c' ∧ c ≤ c' ↔ p.Meets mom ∧ p.Meets mom') := by
  obtain ⟨c, read, cell⟩ := coordinate_read valid mom max
  obtain ⟨c', read', cell'⟩ := coordinate_read valid mom' max
  refine ⟨c, c', read, read', fun good => ⟨cell.mp good.1, cell'.mp good.2.1⟩, ?_⟩
  intro ⟨meets, meets'⟩
  refine ⟨cell.mpr meets, cell'.mpr meets', ?_⟩
  rw [coordinate_meets valid mom max meets, Option.some_inj] at read
  rw [coordinate_meets valid mom' max meets', Option.some_inj] at read'
  rw [← read, ← read']
  exact ideal_mono valid mom mom' max order

end

theorem chosen_profile (default : ShowerProfile ℝ) (nbins : Int) (low high : ℝ) (profiles : List (ShowerProfile ℝ)) (max : ℝ)
    (validDefault : default.Valid) (room : nbins ≤ profiles.length) (valid : ∀ p ∈ profiles, p.Valid) :
    ∃ p, chooseProfile default nbins low high profiles max = some p ∧ p.Valid := by
  simp only [chooseProfile]
  split
  · rename_i inside
    have present : (Arith.trunc ((100.0 * max - low) / (high - low) * Arith.ofInt nbins)).toNat < profiles.length := by omega
    exact ⟨_, List.getElem?_eq_getElem present, valid _ (List.getElem_mem present)⟩
  · exact ⟨default, rfl, validDefault⟩

theorem shower_coordinates_exactly (t : ShowerTables ℝ) (valid : t.Valid) (xmom xmom' ymom ymom' xmax ymax : ℝ)
    (xorder : xmom ≤ xmom') (yorder : ymom ≤ ymom') :
    ∃ px py x y x' y', t.proftempx xmax = some px ∧ t.proftempy ymax = some py ∧
      cellCoordinates t xmom ymom xmax ymax = some (x, y) ∧ cellCoordinates t xmom' ymom' xmax ymax = some (x', y') ∧
      (InCell xmax x ∧ InCell xmax x' ∧ x ≤ x' ↔ px.Meets xmom ∧ px.Meets xmom') ∧
      (InCell ymax y ∧ InCell ymax y' ∧ y ≤ y' ↔ py.Meets ymom ∧ py.Meets ymom') := by
  obtain ⟨px, chosenx, validx⟩ := chosen_profile _ _ t.profx_xmin t.profx_xmax _ xmax valid.xdefault valid.xbins valid.x
  obtain ⟨py, choseny, validy⟩ := chosen_profile _ _ t.profy_ymin t.profy_ymax _ ymax valid.ydefault valid.ybins valid.y
  obtain ⟨x, x', readx, readx', exactx⟩ := coordinate_exactly validx xmom xmom' xmax xorder
  obtain ⟨y, y', ready, ready', exacty⟩ := coordinate_exactly validy ymom ymom' ymax yorder
  refine ⟨px, py, x, y, x', y', chosenx, choseny, ?_, ?_, exactx, exacty⟩
  · rw [cellCoordinates, ShowerTables.proftempx, chosenx, ShowerTables.proftempy, choseny]
    simp only [Option.bind_eq_bind, Option.bind_some, readx, ready]
  · rw [cellCoordinates, ShowerTables.proftempx, chosenx, ShowerTables.proftempy, choseny]
    simp only [Option.bind_eq_bind, Option.bind_some, readx', ready']

-- One bin from 0 to 1 in both directions.
def oneBin : ShowerProfile ℝ := ⟨1, 0, 1, [0, 1]⟩

def oneBinTables : ShowerTables ℝ := ⟨oneBin, oneBin, 0, 0, 0, 1, 0, 1, [], []⟩

theorem one_bin_valid : oneBinTables.Valid := by
  have bin : oneBin.Valid := ⟨le_refl 1, zero_lt_one, rfl, by simp [oneBin], rfl, rfl⟩
  exact ⟨bin, bin, le_refl 0, le_refl 0, fun _ listed => absurd listed List.not_mem_nil,
    fun _ listed => absurd listed List.not_mem_nil⟩

theorem one_bin_chosen (max : ℝ) : oneBinTables.proftempx max = some oneBin ∧ oneBinTables.proftempy max = some oneBin := by
  have outside (bin : Int) : ¬ (0 ≤ bin ∧ bin < 0) := by omega
  exact ⟨if_neg (outside _), if_neg (outside _)⟩

theorem one_bin_scaled (mom : ℝ) : oneBin.scaled mom = mom := by
  change (mom - 0) / (1 - 0) * ((1 : ℤ) : ℝ) = mom
  push_cast
  ring

theorem one_bin_meets (mom : ℝ) (from_zero : 0 ≤ mom) : oneBin.Meets mom := by
  intro _ neg
  rw [one_bin_scaled] at neg
  exact absurd from_zero (not_le.mpr neg)

theorem moments_of_table :
    ∃ x y x' y', cellCoordinates oneBinTables 0.25 0 0 0 = some (x, y) ∧
      cellCoordinates oneBinTables 0.75 1 0 0 = some (x', y') ∧
      (InCell 0 x ∧ InCell 0 x' ∧ x ≤ x') ∧ InCell 0 y ∧ InCell 0 y' ∧ y ≤ y' := by
  obtain ⟨px, py, x, y, x', y', chosenx, choseny, first, second, exactx, exacty⟩ :=
    shower_coordinates_exactly oneBinTables one_bin_valid 0.25 0.75 0 1 0 0 (by norm_num) zero_le_one
  rw [(one_bin_chosen 0).1, Option.some_inj] at chosenx
  rw [(one_bin_chosen 0).2, Option.some_inj] at choseny
  subst chosenx
  subst choseny
  exact ⟨x, y, x', y', first, second,
    exactx.mpr ⟨one_bin_meets _ (by norm_num), one_bin_meets _ (by norm_num)⟩,
    exacty.mpr ⟨one_bin_meets _ le_rfl, one_bin_meets _ zero_le_one⟩⟩

-- Half a bin below the table the coordinate leaves the cell, and it is below
-- that of a smaller moment.
theorem moment_below_table :
    oneBinTables.Valid ∧ ∃ y, cellCoordinates oneBinTables (-1) 0 0 0 = some (-0.021, y) ∧
      cellCoordinates oneBinTables (-0.5) 0 0 0 = some (-0.042, y) ∧ ¬ InCell 0 (-0.042) := by
  obtain ⟨chosenx, choseny⟩ := one_bin_chosen 0
  have bin : oneBin.Valid := one_bin_valid.xdefault
  have size : (ECAL_max_cell_size : ℝ) = 0.042 := rfl
  obtain ⟨y, ycoordinate, _⟩ := coordinate_read bin 0 0
  have edge : oneBin.coordinate (-1) 0 = some (-0.021) := by
    have flat : interpolate oneBin.fraction (-1) = 0 :=
      interpolate_flat _ _ (if_pos (by norm_num)) (if_pos (by norm_num))
    rw [coordinate_below (-1) 0 (by rw [one_bin_scaled]), ShowerProfile.ideal, one_bin_scaled, flat, size]
    norm_num
  have outside : oneBin.coordinate (-0.5) 0 = some (-0.042) := by
    have last : oneBin.fraction 1 = 1 := (Option.some.inj (fraction_entry bin 1 (le_refl 1))).symm
    rw [coordinate_gap bin (-0.5) 0 (by rw [one_bin_scaled]; norm_num) (by rw [one_bin_scaled]; norm_num), last, one_bin_scaled, size]
    norm_num
  refine ⟨one_bin_valid, y, ?_, ?_, ?_⟩
  · simp only [cellCoordinates, chosenx, choseny, Option.bind_eq_bind, Option.bind_some, edge, ycoordinate]
  · simp only [cellCoordinates, chosenx, choseny, Option.bind_eq_bind, Option.bind_some, outside, ycoordinate]
  · rw [InCell, size]
    norm_num

end Solgem
