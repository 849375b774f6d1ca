import Solgem.Bench
import Solgem.ExactArith
import Solgem.Lib.Sweep

set_option autoImplicit false

namespace Solgem

open Lib

section
variable {F : Type} [Arith F]

-- What the test gives one bin from one ion.
def lorentz (amplitude r2 eff_sigma_square xd2 yd2 : F) : F :=
  if xd2 + yd2 ≤ r2 then amplitude / (xd2 + yd2 + eff_sigma_square) else 0.0

def ionAmplitude (par : Params F) (ip : IonPar F) : F :=
  let eff_sigma := Arith.sqrt (ip.R2 / (par.fSNormNsigma * par.fSNormNsigma))
  par.fAvaGain * ip.ggnorm * (1.0 / (Arith.pi * eff_sigma)) * (eff_sigma * eff_sigma)

-- Bin (jx, jy) with its own centre.
def binCharge (par : Params F) (pl : GEMPlane F) (g : Grid F) (ip : IonPar F) (jx jy : Int) : F :=
  let frs := toStripFrame pl ip.X ip.Y
  let xc := g.xl + (Arith.ofInt jx + 0.5) * g.xbw
  let yc := g.yb + (Arith.ofInt jy + 0.5) * g.ybw
  lorentz (ionAmplitude par ip) ip.R2 (ip.R2 / (par.fSNormNsigma * par.fSNormNsigma))
    ((frs.1 - xc) * (frs.1 - xc)) ((frs.2 - yc) * (frs.2 - yc))

-- The integration as it is meant: one ion over all bins of the grid.
def fillIonFull (par : Params F) (pl : GEMPlane F) (g : Grid F) (fSumA : Int → F) (ip : IonPar F) : Int → F :=
  (List.range g.nx.toNat).foldl (fun fSumA (jx : Nat) =>
    (List.range g.ny.toNat).foldl (fun fSumA (jy : Nat) =>
      Function.update fSumA (jx * g.ny + jy) (fSumA (jx * g.ny + jy) + binCharge par pl g ip jx jy)) fSumA) fSumA

-- The loops of fillIon visit this bin.
def InWindow (pl : GEMPlane F) (g : Grid F) (ip : IonPar F) (jx jy : Int) : Prop :=
  let frs := toStripFrame pl ip.X ip.Y
  let ix := Arith.trunc ((frs.1 - g.xl) / g.xbw)
  let iy := Arith.trunc ((frs.2 - g.yb) / g.ybw)
  let dx := Arith.trunc (ip.SNorm / g.xbw + 1.0)
  let dy := Arith.trunc (ip.SNorm / g.ybw + 1.0)
  (max (ix - dx) 0 ≤ jx ∧ jx < min (ix + dx + 1) g.nx) ∧ max (iy - dy) 0 ≤ jy ∧ jy < min (iy + dy + 1) g.ny

instance (pl : GEMPlane F) (g : Grid F) (ip : IonPar F) (jx jy : Int) : Decidable (InWindow pl g ip jx jy) :=
  inferInstanceAs (Decidable (_ ∧ _))

def fillBinsFull (par : Params F) (pl : GEMPlane F) (g : Grid F) (ion : IonState F) : Int → F :=
  ion.fRIon.foldl (fillIonFull par pl g) (fun _ => 0.0)

end

-- No bin whose centre lies within the radius is left out. Left of the first
-- bin truncation is one too high, but there no bin is needed.
theorem window_covers (x low w radius : ℝ) (j : Int) (first : 0 ≤ j) (wide : 0 < w) (nonneg : 0 ≤ radius)
    (close : |x - (low + ((j : ℝ) + 0.5) * w)| ≤ radius) :
    Arith.trunc ((x - low) / w) - Arith.trunc (radius / w + 1.0) ≤ j ∧
      j < Arith.trunc ((x - low) / w) + Arith.trunc (radius / w + 1.0) + 1 := by
  have shifted : |(x - low) / w - ((j : ℝ) + 0.5)| ≤ radius / w := by
    have scaled : (x - low) / w - ((j : ℝ) + 0.5) = (x - (low + ((j : ℝ) + 0.5) * w)) / w := by
      field_simp
      ring
    rw [scaled, abs_div, abs_of_pos wide]
    exact div_le_div_of_nonneg_right close wide.le
  generalize (x - low) / w = t at shifted ⊢
  have reach : 0 ≤ radius / w := div_nonneg nonneg wide.le
  generalize radius / w = q at shifted reach ⊢
  obtain ⟨below, above⟩ := abs_le.mp shifted
  have margin := trunc_upper (q + 1.0)
  have centre := trunc_upper t
  have some_margin : 0 < Arith.trunc (q + 1.0) := by
    have positive : (0 : ℝ) < (Arith.trunc (q + 1.0) : ℤ) := by linarith
    exact_mod_cast positive
  constructor
  · cases lt_or_ge t 0 with
    | inl left =>
        have outside := trunc_nonpos t left
        omega
    | inr right =>
        have inside := trunc_lower t right
        have apart : ((Arith.trunc t - Arith.trunc (q + 1.0) : ℤ) : ℝ) < (j + 1 : ℤ) := by
          push_cast
          linarith
        have whole : Arith.trunc t - Arith.trunc (q + 1.0) < j + 1 := by exact_mod_cast apart
        omega
  · have apart : ((j : ℤ) : ℝ) < (Arith.trunc t + Arith.trunc (q + 1.0) + 1 : ℤ) := by
      push_cast
      linarith
    exact_mod_cast apart

section
variable (par : Params ℝ) (pl : GEMPlane ℝ) (g : Grid ℝ)

theorem row_of_bin (n row low high b : Int) (some_entry : 0 < n) (first : 0 ≤ low) (last : high ≤ n) :
    (row * n + low ≤ b ∧ b < row * n + high) ↔ b / n = row ∧ low ≤ b % n ∧ b % n < high := by
  constructor
  · rintro ⟨below, above⟩
    have unique := (Int.ediv_emod_unique (a := b) (r := b - row * n) (q := row) some_entry).mpr
      ⟨by rw [Int.mul_comm n row]; omega, by omega, by omega⟩
    omega
  · rintro ⟨rfl, below, above⟩
    have split := Int.mul_ediv_add_emod b n
    rw [Int.mul_comm] at split
    omega

theorem update_lorentz (amplitude r2 eff_sigma_square xd2 yd2 : ℝ) (bin : Int) (fSumA : Int → ℝ) :
    (if xd2 + yd2 ≤ r2 then Function.update fSumA bin (fSumA bin + amplitude / (xd2 + yd2 + eff_sigma_square)) else fSumA) =
      Function.update fSumA bin (fSumA bin + lorentz amplitude r2 eff_sigma_square xd2 yd2) := by
  rw [lorentz]
  by_cases near : xd2 + yd2 ≤ r2
  · rw [if_pos near, if_pos near]
  · rw [if_neg near, if_neg near]
    norm_num

theorem fill_column_at (amplitude r2 eff_sigma_square frys xd2 : ℝ) (jx low high : Int) (fSumA : Int → ℝ) (b : Int) :
    fillColumn g amplitude r2 eff_sigma_square frys xd2 jx low high fSumA b = fSumA b +
      if jx * g.ny + low ≤ b ∧ b < jx * g.ny + high then
        lorentz amplitude r2 eff_sigma_square xd2 ((frys - (g.yb + (((b - jx * g.ny : Int) : ℝ) + 0.5) * g.ybw)) *
          (frys - (g.yb + (((b - jx * g.ny : Int) : ℝ) + 0.5) * g.ybw)))
      else 0 := by
  have walked := walk_foldl (fun (k : Nat) (yc : ℝ) (fSumA : Int → ℝ) =>
    Function.update fSumA (jx * g.ny + low + k) (fSumA (jx * g.ny + low + k) +
      lorentz amplitude r2 eff_sigma_square xd2 ((frys - yc) * (frys - yc))))
    (g.yb + (Arith.ofInt low + 0.5) * g.ybw) g.ybw (high - low).toNat fSumA
  have swept := sweep_foldl (fun k : Nat =>
    lorentz amplitude r2 eff_sigma_square xd2
      ((frys - (g.yb + (Arith.ofInt low + 0.5) * g.ybw + (k : ℝ) * g.ybw)) *
        (frys - (g.yb + (Arith.ofInt low + 0.5) * g.ybw + (k : ℝ) * g.ybw))))
    (jx * g.ny + low) (high - low).toNat fSumA b
  simp only [fillColumn, update_lorentz, ← Int.add_assoc]
  rw [walked]
  refine swept.trans (congrArg (fSumA b + ·) ?_)
  by_cases inside : jx * g.ny + low ≤ b ∧ b < jx * g.ny + high
  · -- the centre reached by steps is the centre of the bin itself
    have centre : g.yb + (Arith.ofInt low + 0.5) * g.ybw + ((b - (jx * g.ny + low)).toNat : ℝ) * g.ybw =
        g.yb + (((b - jx * g.ny : Int) : ℝ) + 0.5) * g.ybw := by
      have steps : ((b - (jx * g.ny + low)).toNat : ℝ) = (b - jx * g.ny : Int) - (low : ℝ) := by
        rw [← Int.cast_natCast, Int.toNat_of_nonneg (by omega)]
        push_cast
        ring
      rw [steps]
      change g.yb + ((low : ℝ) + 0.5) * g.ybw + _ = _
      ring
    rw [if_pos inside, if_pos (by omega)]
    rw [centre]
  · rw [if_neg inside, if_neg (by omega)]

-- Every bin of a window gets what the test gives it, the other bins nothing.
theorem fill_window_at (some_entry : 0 < g.ny) (ip : IonPar ℝ) (x0 x1 y0 y1 : Int) (first : 0 ≤ y0) (last : y1 ≤ g.ny)
    (fSumA : Int → ℝ) (b : Int) :
    ((List.range (x1 - x0).toNat).foldl (fun (acc : (Int → ℝ) × ℝ) (k : Nat) =>
      (fillColumn g (ionAmplitude par ip) ip.R2 (ip.R2 / (par.fSNormNsigma * par.fSNormNsigma)) (toStripFrame pl ip.X ip.Y).2
        (((toStripFrame pl ip.X ip.Y).1 - acc.2) * ((toStripFrame pl ip.X ip.Y).1 - acc.2)) (x0 + k) y0 y1 acc.1,
        acc.2 + g.xbw)) (fSumA, g.xl + (Arith.ofInt x0 + 0.5) * g.xbw)).1 b =
      fSumA b + if (x0 ≤ b / g.ny ∧ b / g.ny < x1) ∧ y0 ≤ b % g.ny ∧ b % g.ny < y1
        then binCharge par pl g ip (b / g.ny) (b % g.ny) else 0 := by
  have walked := walk_foldl (fun (k : Nat) (xc : ℝ) (fSumA : Int → ℝ) =>
    fillColumn g (ionAmplitude par ip) ip.R2 (ip.R2 / (par.fSNormNsigma * par.fSNormNsigma)) (toStripFrame pl ip.X ip.Y).2
      (((toStripFrame pl ip.X ip.Y).1 - xc) * ((toStripFrame pl ip.X ip.Y).1 - xc)) (x0 + k) y0 y1 fSumA)
    (g.xl + (Arith.ofInt x0 + 0.5) * g.xbw) g.xbw (x1 - x0).toNat fSumA
  rw [walked]
  have writes : ∀ (k : Nat) (table : Int → ℝ) (b : Int),
      fillColumn g (ionAmplitude par ip) ip.R2 (ip.R2 / (par.fSNormNsigma * par.fSNormNsigma)) (toStripFrame pl ip.X ip.Y).2
        (((toStripFrame pl ip.X ip.Y).1 - (g.xl + (Arith.ofInt x0 + 0.5) * g.xbw + k * g.xbw)) *
          ((toStripFrame pl ip.X ip.Y).1 - (g.xl + (Arith.ofInt x0 + 0.5) * g.xbw + k * g.xbw))) (x0 + k) y0 y1 table b =
      table b + if b / g.ny = x0 + (k : Int) ∧ y0 ≤ b % g.ny ∧ b % g.ny < y1
        then binCharge par pl g ip (b / g.ny) (b % g.ny) else 0 := by
    intro k table b
    rw [fill_column_at]
    refine congrArg (table b + ·) ?_
    have row := row_of_bin g.ny (x0 + k) y0 y1 b some_entry first last
    by_cases inside : (x0 + k) * g.ny + y0 ≤ b ∧ b < (x0 + k) * g.ny + y1
    · have here := row.mp inside
      have split := Int.mul_ediv_add_emod b g.ny
      rw [here.1, Int.mul_comm] at split
      have entry : b - (x0 + k) * g.ny = b % g.ny := by omega
      have centre : g.xl + (Arith.ofInt x0 + 0.5) * g.xbw + (k : ℝ) * g.xbw = g.xl + (((x0 + k : Int) : ℝ) + 0.5) * g.xbw := by
        change g.xl + ((x0 : ℝ) + 0.5) * g.xbw + _ = _
        push_cast
        ring
      rw [if_pos inside, if_pos here, entry, here.1, centre]
      rfl
    · rw [if_neg inside, if_neg (mt row.mpr inside)]
  have summed := rows_foldl _ (fun b => b / g.ny) x0 (fun b => y0 ≤ b % g.ny ∧ b % g.ny < y1) _ writes (x1 - x0).toNat fSumA b
  refine summed.trans (congrArg (fSumA b + ·) (if_congr ?_ rfl rfl))
  omega

theorem fill_ion_at (some_entry : 0 < g.ny) (fSumA : Int → ℝ) (ip : IonPar ℝ) (b : Int) :
    fillIon par pl g fSumA ip b = fSumA b +
      if InWindow pl g ip (b / g.ny) (b % g.ny) then binCharge par pl g ip (b / g.ny) (b % g.ny) else 0 :=
  fill_window_at par pl g some_entry ip _ _ _ _ (le_max_right _ _) (min_le_right _ _) fSumA b

theorem fill_ion_full_at (some_entry : 0 < g.ny) (fSumA : Int → ℝ) (ip : IonPar ℝ) (b : Int) :
    fillIonFull par pl g fSumA ip b = fSumA b +
      if (0 ≤ b / g.ny ∧ b / g.ny < g.nx) ∧ 0 ≤ b % g.ny ∧ b % g.ny < g.ny then binCharge par pl g ip (b / g.ny) (b % g.ny) else 0 := by
  have writes : ∀ (k : Nat) (table : Int → ℝ) (b : Int),
      (List.range g.ny.toNat).foldl (fun fSumA (jy : Nat) =>
        Function.update fSumA (k * g.ny + jy) (fSumA (k * g.ny + jy) + binCharge par pl g ip k jy)) table b =
      table b + if b / g.ny = 0 + (k : Int) ∧ 0 ≤ b % g.ny ∧ b % g.ny < g.ny
        then binCharge par pl g ip (b / g.ny) (b % g.ny) else 0 := by
    intro k table b
    refine (sweep_foldl (fun jy : Nat => binCharge par pl g ip k jy) (k * g.ny) g.ny.toNat table b).trans
      (congrArg (table b + ·) ?_)
    have row := row_of_bin g.ny k 0 g.ny b some_entry (le_refl 0) (le_refl _)
    rw [Int.add_zero] at row
    rw [Int.zero_add, Int.toNat_of_nonneg some_entry.le]
    by_cases inside : k * g.ny ≤ b ∧ b < k * g.ny + g.ny
    · have here := row.mp inside
      have split := Int.mul_ediv_add_emod b g.ny
      rw [here.1, Int.mul_comm] at split
      rw [if_pos inside, if_pos here, here.1]
      congr 1
      omega
    · rw [if_neg inside, if_neg (mt row.mpr inside)]
  have summed := rows_foldl _ (fun b => b / g.ny) 0 (fun b => 0 ≤ b % g.ny ∧ b % g.ny < g.ny) _ writes g.nx.toNat fSumA b
  rw [fillIonFull]
  refine summed.trans (congrArg (fSumA b + ·) (if_congr ?_ rfl rfl))
  omega

theorem abs_le_of_mul_self (x radius : ℝ) (nonneg : 0 ≤ radius) (close : x * x ≤ radius * radius) : |x| ≤ radius := by
  rw [← abs_of_nonneg nonneg]
  exact abs_le_iff_mul_self_le.mpr close

-- The circle of an ion, inside the grid, is inside the window of the ion.
theorem bin_charge_window (wide : 0 < g.xbw) (tall : 0 < g.ybw) (ip : IonPar ℝ) (radius : 0 < ip.SNorm)
    (circle : ip.R2 = ip.SNorm * ip.SNorm) (jx jy : Int) (column : 0 ≤ jx ∧ jx < g.nx) (row : 0 ≤ jy ∧ jy < g.ny)
    (outside : ¬ InWindow pl g ip jx jy) : binCharge par pl g ip jx jy = 0 := by
  have far : ¬ ((toStripFrame pl ip.X ip.Y).1 - (g.xl + (Arith.ofInt jx + 0.5) * g.xbw)) *
        ((toStripFrame pl ip.X ip.Y).1 - (g.xl + (Arith.ofInt jx + 0.5) * g.xbw)) +
      ((toStripFrame pl ip.X ip.Y).2 - (g.yb + (Arith.ofInt jy + 0.5) * g.ybw)) *
        ((toStripFrame pl ip.X ip.Y).2 - (g.yb + (Arith.ofInt jy + 0.5) * g.ybw)) ≤ ip.R2 := by
    intro near
    rw [circle] at near
    refine outside ?_
    have first := window_covers (toStripFrame pl ip.X ip.Y).1 g.xl g.xbw ip.SNorm jx column.1 wide radius.le
      (abs_le_of_mul_self _ _ radius.le ((le_add_of_nonneg_right (mul_self_nonneg _)).trans near))
    have second := window_covers (toStripFrame pl ip.X ip.Y).2 g.yb g.ybw ip.SNorm jy row.1 tall radius.le
      (abs_le_of_mul_self _ _ radius.le ((le_add_of_nonneg_left (mul_self_nonneg _)).trans near))
    exact ⟨⟨max_le first.1 column.1, lt_min first.2 column.2⟩, max_le second.1 row.1, lt_min second.2 row.2⟩
  exact (if_neg far).trans (by norm_num)

theorem fill_ion_is_full (some_entry : 0 < g.ny) (wide : 0 < g.xbw) (tall : 0 < g.ybw) (fSumA : Int → ℝ) (ip : IonPar ℝ)
    (radius : 0 < ip.SNorm) (circle : ip.R2 = ip.SNorm * ip.SNorm) : fillIon par pl g fSumA ip = fillIonFull par pl g fSumA ip := by
  funext b
  rw [fill_ion_at par pl g some_entry, fill_ion_full_at par pl g some_entry]
  by_cases inside : InWindow pl g ip (b / g.ny) (b % g.ny)
  · have column := inside.1
    have row := inside.2
    rw [if_pos inside, if_pos ⟨⟨(le_max_right _ _).trans column.1, column.2.trans_le (min_le_right _ _)⟩,
      (le_max_right _ _).trans row.1, row.2.trans_le (min_le_right _ _)⟩]
  · rw [if_neg inside]
    split
    · rename_i grid
      rw [bin_charge_window par pl g wide tall ip radius circle _ _ grid.1 grid.2 inside]
    · rfl

theorem fill_bins_is_full (some_entry : 0 < g.ny) (wide : 0 < g.xbw) (tall : 0 < g.ybw) (ion : IonState ℝ)
    (circles : ∀ ip ∈ ion.fRIon, 0 < ip.SNorm ∧ ip.R2 = ip.SNorm * ip.SNorm) :
    fillBins par pl g ion = fillBinsFull par pl g ion := by
  rw [fillBins, fillBinsFull]
  exact List.foldl_ext _ _ _ (fun fSumA ip member =>
    fill_ion_is_full par pl g some_entry wide tall fSumA ip (circles ip member).1 (circles ip member).2)

theorem bin_count (nstrips : Nat) (some_entry : 0 < g.ny) (columns : g.nx = nstrips * par.fXIntegralStepsPerPitch) :
    (g.nx * g.ny).toNat = nstrips * (par.fXIntegralStepsPerPitch * g.ny.toNat) := by
  zify
  rw [Int.toNat_of_nonneg (by rw [columns]; positivity), Int.toNat_of_nonneg some_entry.le, columns]
  ring

-- The charge of a strip is that of its bins: bin b lies in column b / ny, and
-- that column in strip b / ny / steps.
theorem strip_charge_at (fSumA : Int → ℝ) (nstrips : Nat) (some_entry : 0 < g.ny)
    (columns : g.nx = nstrips * par.fXIntegralStepsPerPitch) (j : Nat) (inside : j < nstrips) :
    stripCharge par g fSumA j = g.xbw * g.ybw *
      ∑ b ∈ Finset.range (g.nx * g.ny).toNat with b / g.ny.toNat / par.fXIntegralStepsPerPitch = j, fSumA b := by
  have height : ((g.ny.toNat : Nat) : Int) = g.ny := Int.toNat_of_nonneg some_entry.le
  have area := bin_count par g nstrips some_entry columns
  have block := sum_row (fun b : Nat => fSumA b) nstrips (par.fXIntegralStepsPerPitch * g.ny.toNat) j inside
  have rows := sum_rows (fun i : Nat => fSumA ((j * (par.fXIntegralStepsPerPitch * g.ny.toNat) + i : Nat) : Int))
    par.fXIntegralStepsPerPitch g.ny.toNat
  have bins : ∀ b, b / g.ny.toNat / par.fXIntegralStepsPerPitch = b / (par.fXIntegralStepsPerPitch * g.ny.toNat) := by
    intro b
    rw [Nat.div_div_eq_div_mul, Nat.mul_comm]
  have summed : stripCharge par g fSumA j = ∑ k ∈ Finset.range par.fXIntegralStepsPerPitch,
      (∑ jy ∈ Finset.range g.ny.toNat, fSumA ((j * par.fXIntegralStepsPerPitch + k) * g.ny + jy)) * (g.xbw * g.ybw) := by
    have none : (0.0 : ℝ) = 0 := by norm_num
    refine (sum_foldl _ _ _).trans ?_
    refine (congrArg (· + _) none).trans ((zero_add _).trans ?_)
    refine Finset.sum_congr rfl (fun k _ => congrArg (· * (g.xbw * g.ybw)) ?_)
    exact (sum_foldl _ _ _).trans ((congrArg (· + _) none).trans (zero_add _))
  simp only [bins]
  rw [area, block, ← rows, summed, ← Finset.sum_mul, mul_comm]
  refine congrArg (g.xbw * g.ybw * ·) (Finset.sum_congr rfl fun k _ => Finset.sum_congr rfl fun jy _ => congrArg fSumA ?_)
  push_cast
  rw [height]
  ring

-- The windows lose no charge: they fill the grid as loops over all bins do,
-- and the strips share out the whole of it.
theorem windowed_charge_is_full (some_entry : 1 ≤ g.ny) (wide : 0 < g.xbw) (tall : 0 < g.ybw)
    (ion : IonState ℝ) (circles : ∀ ip ∈ ion.fRIon, 0 < ip.SNorm ∧ ip.R2 = ip.SNorm * ip.SNorm) (nstrips : Nat)
    (columns : g.nx = nstrips * par.fXIntegralStepsPerPitch) :
    (∀ fSumA, ∀ ip ∈ ion.fRIon, fillIon par pl g fSumA ip = fillIonFull par pl g fSumA ip) ∧
      fillBins par pl g ion = fillBinsFull par pl g ion ∧
      (∀ j < nstrips, stripCharge par g (fillBins par pl g ion) j = g.xbw * g.ybw *
        ∑ b ∈ Finset.range (g.nx * g.ny).toNat with b / g.ny.toNat / par.fXIntegralStepsPerPitch = j, fillBins par pl g ion b) ∧
      ∑ j ∈ Finset.range nstrips, stripCharge par g (fillBins par pl g ion) j =
        g.xbw * g.ybw * ∑ b ∈ Finset.range (g.nx * g.ny).toNat, fillBins par pl g ion b := by
  have strips := strip_charge_at par g (fillBins par pl g ion) nstrips some_entry columns
  refine ⟨fun fSumA ip member => ?_, fill_bins_is_full par pl g some_entry wide tall ion circles, strips, ?_⟩
  · exact fill_ion_is_full par pl g some_entry wide tall fSumA ip (circles ip member).1 (circles ip member).2
  · rw [Finset.sum_congr rfl (fun j member => strips j (Finset.mem_range.mp member)), ← Finset.mul_sum]
    refine congrArg (g.xbw * g.ybw * ·) (Finset.sum_fiberwise_of_maps_to (fun b member => ?_) _)
    have below := Finset.mem_range.mp member
    rw [bin_count par g nstrips some_entry columns] at below
    rw [Finset.mem_range, Nat.div_div_eq_div_mul]
    exact Nat.div_lt_of_lt_mul (by rw [Nat.mul_comm, Nat.mul_comm g.ny.toNat]; exact below)

end

-- Three strips of two columns, and one ion to the left of the grid.
theorem windowed_charge_is_full_left_ion :
    let g : Grid ℝ := ⟨0, 0, 6, 3, 1 / 2, 1⟩
    let ion : IonState ℝ := { unwritten with fRIon := [⟨-3 / 10, 1, 1, 2, 4, 1⟩] }
    fillBins (bench 3 2).par ((benchChamber 3).fPlanes 0) g ion = fillBinsFull (bench 3 2).par ((benchChamber 3).fPlanes 0) g ion := by
  intro g ion
  have circles : ∀ ip ∈ ion.fRIon, 0 < ip.SNorm ∧ ip.R2 = ip.SNorm * ip.SNorm := by
    intro ip member
    rw [List.mem_singleton.mp member]
    norm_num
  exact (windowed_charge_is_full (bench 3 2).par ((benchChamber 3).fPlanes 0) g (by decide) (by norm_num [g]) (by norm_num [g])
    ion circles 3 (by rfl)).2.1

end Solgem
