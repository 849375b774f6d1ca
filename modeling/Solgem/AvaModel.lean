import Solgem.Draw
import Solgem.GEMHit
import Solgem.Geometry

set_option autoImplicit false

namespace Solgem

open Lib

variable {F : Type} [Arith F] {rng : Rng F}

-- The parameters ReadDatabase loads, with what it checks of them.
structure Params (F : Type) where
  fGasWion : F
  fGasDiffusion : F
  fGasDriftVelocity : F
  fAvalancheFiducialBand : F
  fAvalancheChargeStatistics : Int
  fGainMean : F
  fGain0 : F
  fMaxNIon : Nat
  fSNormNsigma : F
  fAvaGain : F
  fTriggerOffset : List F
  fTriggerJitter : F
  fEleSamplingPoints : Nat
  fEleSamplingPeriod : F
  fADCoffset : F
  fADCgain : F
  fADCbits : Nat
  fGateWidth : F
  fEntranceRef : F
  fLateralUncertainty : F
  fPulseNoiseSigma : F
  fPulseShapeTau0 : F
  fPulseShapeTau1 : F
  fRoutZ : F
  fYIntegralStepsPerPitch : Nat
  fXIntegralStepsPerPitch : Nat
  sampling_points : fEleSamplingPoints ≤ 10
  adc_bits : 1 ≤ fADCbits ∧ fADCbits ≤ 15

-- TSBSSimAuxi::ADCConvert; its assert on the number of bits is Params.adc_bits.
def adcConvert (val off gain : F) (bits : Nat) : Int :=
  let val := if val < 0.0 then 0.0 else val
  let vvv := (val - off) / gain
  let saturation := Arith.ofInt (2 ^ bits - 1)
  let vvv := if saturation < vvv then saturation else vvv
  let dval := toInt16 (Arith.trunc (Arith.floor (if saturation < vvv then saturation else vvv)))
  if dval < 0 then 0 else dval

theorem adc_convert_nonneg (val off gain : F) (bits : Nat) : 0 ≤ adcConvert val off gain bits := by
  simp only [adcConvert]
  split <;> omega

def pulseShapeSiD (t C Tp : F) : F :=
  let x := t / Tp
  let v := C / Tp * x * Arith.exp (-x)
  if 0.0 < v then v else 0.0

def pulseShape (t A tau0 tau1 : F) : F :=
  if tau1 < 0.0 then pulseShapeSiD t A tau0
  else
    let x0 := -t / tau0
    let x1 := -t / tau1
    let v := A * ((tau0 + tau1) / tau1 / tau1) * (1.0 - Arith.exp x0) * Arith.exp x1
    if 0.0 < v then v else 0.0

structure IonPar (F : Type) where
  X : F
  Y : F
  Charge : F
  SNorm : F
  R2 : F
  ggnorm : F

-- The members IonModel works on. fRIon holds the entries of the last call
-- that wrote any: only the first fRNIon entries of the vector are ever read.
structure IonState (F : Type) where
  fRNIon : Nat
  fRIon : List (IonPar F)
  fRSMax : F
  fRTotalCharge : F
  fRTime0 : F

def drawCharge (par : Params F) : Draw rng F :=
  if par.fAvalancheChargeStatistics = 1 then drawGaus .trnd par.fGainMean (par.fGainMean / Arith.sqrt par.fGain0)
  else drawExp .trnd par.fGainMean

def ionStep (par : Params F) (xi xo : V3 F) (ion : IonState F) (_i : Nat) : Draw rng (IonState F) := do
  let vseg := xo.sub xi
  let lion ← drawUniform .trnd 0.0 1.0
  let spreadX ← drawGaus .trnd 0.0 par.fLateralUncertainty
  let spreadY ← drawGaus .trnd 0.0 par.fLateralUncertainty
  let LD := Arith.abs (xi.z - par.fEntranceRef)
  let LL := Arith.abs (par.fRoutZ - LD - vseg.z * lion)
  let ttime := LL / par.fGasDriftVelocity
  let norm := Arith.sqrt (2.0 * par.fGasDiffusion * ttime)
  let drawn ← drawCharge par
  let charge := if 0.0 < drawn then drawn else 0.0
  let wide := norm * par.fSNormNsigma
  pure
    { ion with
      fRIon := ion.fRIon ++
        [{ X := vseg.x * lion + xi.x + spreadX
           Y := vseg.y * lion + xi.y + spreadY
           Charge := charge
           SNorm := wide
           R2 := wide * wide
           ggnorm := charge * (1.0 / Arith.pi) / (wide * wide) }]
      fRSMax := tmax norm ion.fRSMax
      fRTotalCharge := if 0.0 < drawn then ion.fRTotalCharge + drawn else ion.fRTotalCharge
      fRTime0 := tmin ttime ion.fRTime0 }

def ionStart (fRNIon : Nat) : IonState F where
  fRNIon := fRNIon
  fRIon := []
  fRSMax := 0.0
  fRTotalCharge := 0.0
  fRTime0 := 999999.0

-- IonModel returns early when no ion is drawn, and then leaves every member
-- but fRNIon as the previous call left it.
def ionModel (par : Params F) (xi xo : V3 F) (elost : F) (ion : IonState F) : Draw rng (IonState F) := do
  let primary ← drawPoisson .trnd (elost / par.fGasWion)
  let fRNIon := toUInt32 primary
  if fRNIon = 0 then pure { ion with fRNIon := 0 }
  else
    let fRNIon := if par.fMaxNIon < fRNIon then par.fMaxNIon else fRNIon
    (List.range fRNIon).foldlM (ionStep par xi xo) (ionStart fRNIon)

structure Region (F : Type) where
  x0 : F
  y0 : F
  x1 : F
  y1 : F

def diffusionArea (par : Params F) (ion : IonState F) (xi xo : V3 F) : Region F :=
  let reach := par.fAvalancheFiducialBand * ion.fRSMax
  let (x0, x1) := if xi.x < xo.x then (xi.x - reach, xo.x + reach) else (xo.x - reach, xi.x + reach)
  let (y0, y1) := if xi.y < xo.y then (xi.y - reach, xo.y + reach) else (xo.y - reach, xi.y + reach)
  ⟨x0, y0, x1, y1⟩

def activeRegion (ch : GEMChamber F) (r : Region F) : Option (Region F) :=
  let plX := ch.fPlanes 0
  let plY := ch.fPlanes 1
  let glx := (plX.getStripLowerEdge 0 + plX.fSPitch / 2.0) * 1000.0
  let gly := (plY.getStripLowerEdge 0 + plY.fSPitch / 2.0) * 1000.0
  let gux := (plX.getStripUpperEdge (plX.fNStrips - 1) - plX.fSPitch / 2.0) * 1000.0
  let guy := (plY.getStripUpperEdge (plY.fNStrips - 1) - plY.fSPitch / 2.0) * 1000.0
  if r.x1 < glx ∨ gux < r.x0 ∨ r.y1 < gly ∨ guy < r.y0 then none
  else
    some
      { x0 := if r.x0 < glx then glx else r.x0
        y0 := if r.y0 < gly then gly else r.y0
        x1 := if gux < r.x1 then gux else r.x1
        y1 := if guy < r.y1 then guy else r.y1 }

-- A point of the chamber frame in the strip frame of a plane, both in mm.
def toStripFrame (pl : GEMPlane F) (x y : F) : F × F :=
  let s := pl.planeToStrip (x * 1e-3, y * 1e-3)
  (s.1 * 1e3, s.2 * 1e3)

-- The first and last strip of the region; none inside when the whole of it
-- lies outside the plane, none outside when an assert of GetStrip fails.
def stripRange (pl : GEMPlane F) (r : Region F) : Option (Option (Int × Int)) := do
  let s0 := toStripFrame pl r.x0 r.y0
  let s1 := toStripFrame pl r.x1 r.y1
  let iL ← pl.getStrip (s0.1 * 1e-3) (s0.2 * 1e-3)
  let iU ← pl.getStrip (s1.1 * 1e-3) (s1.2 * 1e-3)
  if iL < 0 ∧ iU < 0 then return none
  let (iL, iU) :=
    if iL < 0 then (pl.getStripInRange (s0.1 * 1e-3), iU)
    else if iU < 0 then (iL, pl.getStripInRange (s1.1 * 1e-3))
    else (iL, iU)
  return some (if iU < iL then (iU, iL) else (iL, iU))

-- The integration bins of one plane: nx times ny of size xbw times ybw, the
-- first with its lower corner at (xl, yb).
structure Grid (F : Type) where
  xl : F
  yb : F
  nx : Int
  ny : Int
  xbw : F
  ybw : F

def grid (par : Params F) (pl : GEMPlane F) (r : Region F) (iL iU : Int) : Grid F :=
  let ys0 := (toStripFrame pl r.x0 r.y0).2
  let ys1 := (toStripFrame pl r.x1 r.y1).2
  let xl := pl.getStripLowerEdge iL * 1000.0
  let xr := pl.getStripUpperEdge iU * 1000.0
  let yq := pl.fSPitch * 1000.0 / Arith.ofInt par.fYIntegralStepsPerPitch
  let yb := yq * Arith.floor ((if ys1 < ys0 then ys1 else ys0) / yq)
  let yt := yq * Arith.ceil ((if ys1 < ys0 then ys0 else ys1) / yq)
  -- The product is formed as UInt_t.
  let nx := toInt32 ((iU - iL + 1) * par.fXIntegralStepsPerPitch)
  let ny := nint ((yt - yb) / yq)
  ⟨xl, yb, nx, ny, (xr - xl) / Arith.ofInt nx, (yt - yb) / Arith.ofInt ny⟩

-- One ion's charge in the bins of one column jx, from min_binNb_y on; yc runs
-- along with jy.
def fillColumn (g : Grid F) (amplitude r2 eff_sigma_square frys xd2 : F) (jx min_binNb_y max_binNb_y : Int)
    (fSumA : Int → F) : Int → F :=
  ((List.range (max_binNb_y - min_binNb_y).toNat).foldl (fun (acc : (Int → F) × F) (k : Nat) =>
    let jy := min_binNb_y + k
    let yd2 := (frys - acc.2) * (frys - acc.2)
    let bin := jx * g.ny + jy
    (if xd2 + yd2 ≤ r2 then Function.update acc.1 bin (acc.1 bin + amplitude / (xd2 + yd2 + eff_sigma_square)) else acc.1,
      acc.2 + g.ybw)) (fSumA, g.yb + (Arith.ofInt min_binNb_y + 0.5) * g.ybw)).1

-- The same over all columns, with xc along with jx.
def fillIon (par : Params F) (pl : GEMPlane F) (g : Grid F) (fSumA : Int → F) (ip : IonPar F) : Int → F :=
  let frs := toStripFrame pl ip.X ip.Y
  let ix := Arith.trunc ((frs.1 - g.xl) / g.xbw)
  let iy := Arith.trunc ((frs.2 - g.yb) / g.ybw)
  let dx := Arith.trunc (ip.SNorm / g.xbw + 1.0)
  let dy := Arith.trunc (ip.SNorm / g.ybw + 1.0)
  let eff_sigma_square := ip.R2 / (par.fSNormNsigma * par.fSNormNsigma)
  let eff_sigma := Arith.sqrt eff_sigma_square
  let amplitude := par.fAvaGain * ip.ggnorm * (1.0 / (Arith.pi * eff_sigma)) * (eff_sigma * eff_sigma)
  let min_binNb_x := max (ix - dx) 0
  let min_binNb_y := max (iy - dy) 0
  let max_binNb_x := min (ix + dx + 1) g.nx
  let max_binNb_y := min (iy + dy + 1) g.ny
  ((List.range (max_binNb_x - min_binNb_x).toNat).foldl (fun (acc : (Int → F) × F) (k : Nat) =>
    let jx := min_binNb_x + k
    let xd2 := (frs.1 - acc.2) * (frs.1 - acc.2)
    (fillColumn g amplitude ip.R2 eff_sigma_square frs.2 xd2 jx min_binNb_y max_binNb_y acc.1, acc.2 + g.xbw))
    (fSumA, g.xl + (Arith.ofInt min_binNb_x + 0.5) * g.xbw)).1

def fillBins (par : Params F) (pl : GEMPlane F) (g : Grid F) (ion : IonState F) : Int → F :=
  ion.fRIon.foldl (fillIon par pl g) (fun _ => 0.0)

def stripCharge (par : Params F) (g : Grid F) (fSumA : Int → F) (j : Nat) : F :=
  let area := g.xbw * g.ybw
  (List.range par.fXIntegralStepsPerPitch).foldl (fun us (k : Nat) =>
    let kx := (j * par.fXIntegralStepsPerPitch + k) * g.ny
    us + (List.range g.ny.toNat).foldl (fun sum (jy : Nat) => sum + fSumA (kx + jy)) 0.0 * area) 0.0

-- The ADC reading dadc of sample b for a strip that collects the charge us.
def sampleADC (par : Params F) (t0 us : F) (b : Nat) : Int :=
  adcConvert (pulseShape (par.fEleSamplingPeriod * Arith.ofInt b - t0) us par.fPulseShapeTau0 par.fPulseShapeTau1)
    par.fADCoffset par.fADCgain par.fADCbits

-- A strip with no signal in any sample is not stored; ai counts the stored.
def storeStrip (par : Params F) (t0 : F) (charge : Nat → F) (iL : Int) (acc : GEMHit F × Nat) (j : Nat) : GEMHit F × Nat :=
  let dadc := sampleADC par t0 (charge j)
  let posflag := ((List.range par.fEleSamplingPoints).map dadc).sum
  if 0 < posflag then
    let sampled := (List.range par.fEleSamplingPoints).foldl (fun (vv : GEMHit F) (b : Nat) =>
      vv.addSampleAt (dadc b) b acc.2) acc.1
    ((sampled.addStripAt (iL + j) acc.2).addChargeAt (charge j) acc.2, acc.2 + 1)
  else acc

def avaPlane (par : Params F) (ion : IonState F) (pl : GEMPlane F) (r : Region F) (t0 : F) :
    Except Fault (Option (GEMHit F)) := do
  match ← check .avaModel (stripRange pl r) with
  | none => return none
  | some (iL, iU) =>
      let g := grid par pl r iL iU
      if 0 < g.nx ∧ 0 < g.ny then
        let fSumA := fillBins par pl g ion
        let vir := ((GEMHit.new g.nx par.fEleSamplingPoints).setTime t0).setHitCharge ion.fRTotalCharge
        let (filled, ai) := (List.range (iU - iL + 1).toNat).foldl (storeStrip par t0 (stripCharge par g fSumA) iL) (vir, 0)
        return some (filled.setSize ai)
      else throw .avaModel

-- AvaModel: none is its null result.
def avaModel (par : Params F) (ion : IonState F) (ch : GEMChamber F) (xi xo : V3 F) (t0 : F) :
    Except Fault (Option (Fin 2 → GEMHit F)) := do
  match activeRegion ch (diffusionArea par ion xi xo) with
  | none => return none
  | some r =>
      let first ← avaPlane par ion (ch.fPlanes 0) r t0
      match first with
      | none => return none
      | some u =>
          let second ← avaPlane par ion (ch.fPlanes 1) r t0
          return second.map (fun v ip => if ip = 0 then u else v)

end Solgem
