import Alus.Coherence.CudaAlgorithmRunner
import Alus.Coherence.FlatEarthPhase
import Alus.Coherence.WindowedSums

/-!
# The kernels of a coherence tile

`CoherenceComputation::LaunchCoherence` (`coherence-cuda/src/coherence_computation.cu`): the keep
flags are taken from the secondary samples as they were read, the samples are turned by their ETAD
and flat-earth phases, the products and powers are summed over the coherence window, and the output
is the sum of the products divided by the root of the product of the powers.

The kernels read and write lists in device memory; a read past the end of one is not defined. The
samples are any type with the operations that are used, which need not be exact. The functions of
the device are parameters.
-/

namespace Alus.Coherence

open Alus.Lib Alus.Util

/-! ## Samples -/

/-- The functions that the kernels call. -/
structure DeviceMath (K F : Type) where
  /-- of a `double`, rounded to `float` -/
  cos : K → F
  sin : K → F
  cosf : F → F
  sinf : F → F
  fabs : F → F
  /-- `thrust::abs` -/
  abs : F × F → F
  sqrt : F → F
  isFinite : F → Bool
  /-- `numeric_limits<float>::epsilon()` -/
  epsilon : F

section Samples

variable {K F : Type} [AddZeroClass F] [Sub F] [Neg F] [Mul F]

/-- The product of two `thrust::complex`. -/
def complexMul (x y : F × F) : F × F := (x.1 * y.1 - x.2 * y.2, x.1 * y.2 + x.2 * y.1)

/-- `thrust::conj`. -/
def conj (x : F × F) : F × F := (x.1, -x.2)

/-- `DataMasterNorm`. -/
def dataMasterNorm (master slave : F × F) : F × F := complexMul master (conj slave)

/-- `Norm`. -/
def norm (x : F × F) : F := x.1 * x.1 + x.2 * x.2

namespace DeviceMath

variable (math : DeviceMath K F)

/-- `SlaveMultiplyComplexReferencePhase`. -/
def slaveMultiplyComplexReferencePhase (flatEarthPhase : K) (slave : F × F) : F × F :=
  complexMul slave (math.cos flatEarthPhase, math.sin flatEarthPhase)

/-- `SecondaryEtadCorrection`. -/
def secondaryEtadCorrection (phase : F) (secondary : F × F) : F × F :=
  if math.isFinite phase then complexMul secondary (math.cosf phase, math.sinf phase) else (0, 0)

/-- The comparison of `BoolImageForCoherenceProductFiltering`. -/
def keepsSample [LE F] [DecidableLE F] (dataIn : F) : Bool :=
  decide (math.epsilon ≤ math.fabs (dataIn - 0))

/-- `FilteredCoherenceProduct`, of the sums over the window: of the products and of the powers. -/
def filteredCoherenceProduct [Div F] [LT F] [DecidableLT F] (product : F × F)
    (slavePower masterPower : F) (keepPixel : Bool) : F :=
  let productT := slavePower * masterPower
  if keepPixel && decide (0 < productT) then math.abs product / math.sqrt productT else 0

end DeviceMath

end Samples

/-! ## Kernels over the output of a tile -/

/-- A kernel with a thread for each pixel of the output. -/
def overTileOut {R : Type} (tile : CohTile) (kernel : Int → Int → Outcome R) : Outcome (List R) :=
  Outcome.collect ((List.range tile.tileOut.pixelCount).map fun (i : Nat) =>
    kernel (i % tile.tileOut.getXSize) (i / tile.tileOut.getXSize))

/-- `SimpleCoherence2DSumKernelSumSurroundings` at one pixel, with its reads. -/
def sumSurroundingsOf {F : Type} [AddZeroClass F] (cohWindowRg cohWindowAz : Int) (tile : CohTile)
    (dTileIn : List F) (columnIdx rowIdx : Int) : Outcome F :=
  let inputTileWidth := tile.tileIn.getXSize
  let inputTileHeight := tile.tileIn.getYSize
  let columnIdxInputTile := columnIdx - tile.xMinPad
  let rowIdxInputTile := rowIdx - tile.yMinPad
  let cohWindowRgSize := windowSize cohWindowRg columnIdx tile.xMaxPad inputTileWidth
  let cohWindowAzSize := windowSize cohWindowAz rowIdx tile.yMaxPad inputTileHeight
  (intRange (startRange rowIdxInputTile) cohWindowAzSize).foldlM (fun pixelValue i => do
    let acc ← (intRange (startRange columnIdxInputTile) cohWindowRgSize).foldlM (fun acc j =>
      let idx := (rowIdxInputTile + i) * inputTileWidth + (columnIdxInputTile + j)
      if idx < inputTileWidth * inputTileHeight then do
        let dataIn ← vectorIndex dTileIn idx
        return acc + dataIn
      else
        return acc) 0
    return pixelValue + acc) 0

/-- `BoolImageForCoherenceProductFiltering` at one pixel, with its reads. -/
def boolImageOf {F : Type} (cohWindowRg cohWindowAz : Int) (tile : CohTile) (dTileIn : List F)
    (dEtadIfg : Option (List F)) (keeps isFinite : F → Bool) (columnIdx rowIdx : Int) :
    Outcome Bool := do
  let minCutAzw := (cohWindowAz - 1) / 2
  let minCutRgw := (cohWindowRg - 1) / 2
  let columnIdxInputTile := columnIdx + minCutRgw - tile.xMinPad
  let rowIdxInputTile := rowIdx + minCutAzw - tile.yMinPad
  let idx := rowIdxInputTile * tile.tileIn.getXSize + columnIdxInputTile
  let dataIn ← vectorIndex dTileIn idx
  let etadValid ← match dEtadIfg with
    | none => .ok true
    | some etad => isFinite <$> vectorIndex etad idx
  return etadValid && keeps dataIn

/-! ## The launch -/

/-- What a thread has on the device of the bands of a tile. The phases are there if `apply_etad`. -/
structure DeviceBands (F : Type) where
  dBandMasterReal : List F
  dBandMasterImag : List F
  dBandSlaveReal : List F
  dBandSlaveImag : List F
  dEtadIfg : Option (List F)

/-- `CoherenceComputation`, with the parameters that `CohCuda` passes to it. -/
structure CoherenceComputation (K F : Type) [Field K] where
  flatEarth : FlatEarth K
  subtractFlatEarth : Bool
  math : DeviceMath K F
  /-- `d_burst_coeffs_` -/
  dBurstCoeffs : List (List K)

namespace CoherenceComputation

variable {K F : Type} [Field K] [LinearOrder K] [FloorRing K] [AddZeroClass F] [Sub F] [Neg F]
  [Mul F] [Div F] [LE F] [DecidableLE F] [LT F] [DecidableLT F] (c : CoherenceComputation K F)

/-- The secondary samples after the ETAD correction. -/
def correctedSlave (bands : DeviceBands F) : List (F × F) :=
  let slave := bands.dBandSlaveReal.zip bands.dBandSlaveImag
  match bands.dEtadIfg with
  | none => slave
  | some dEtadIfg => List.zipWith c.math.secondaryEtadCorrection dEtadIfg slave

/-- The secondary samples after both corrections. -/
def turnedSlave (tile : CohTile) (bands : DeviceBands F) : Outcome (List (F × F)) :=
  if c.subtractFlatEarth then do
    let coefs ← vectorAt c.dBurstCoeffs tile.burstIndex
    let dFlatEarthPhase ← c.flatEarth.flatEarthPhase tile coefs
    return List.zipWith c.math.slaveMultiplyComplexReferencePhase dFlatEarthPhase
      (c.correctedSlave bands)
  else
    return c.correctedSlave bands

/-- `LaunchCoherence`. -/
def launchCoherence (tile : CohTile) (bands : DeviceBands F) : Outcome (List F) := do
  let rg := c.flatEarth.generator.cohWinRg.1
  let az := c.flatEarth.generator.cohWinAz.1
  -- before the samples are turned
  let keep ← overTileOut tile (boolImageOf rg az tile bands.dBandSlaveReal bands.dEtadIfg
    c.math.keepsSample c.math.isFinite)
  let slave ← c.turnedSlave tile bands
  let master := bands.dBandMasterReal.zip bands.dBandMasterImag
  let products := List.zipWith dataMasterNorm master slave
  let productReal ← overTileOut tile (sumSurroundingsOf rg az tile (products.map Prod.fst))
  let productImag ← overTileOut tile (sumSurroundingsOf rg az tile (products.map Prod.snd))
  let slavePower ← overTileOut tile (sumSurroundingsOf rg az tile (slave.map norm))
  let masterPower ← overTileOut tile (sumSurroundingsOf rg az tile (master.map norm))
  return List.zipWith (fun (sums : (F × F) × F × F) keepPixel =>
      c.math.filteredCoherenceProduct sums.1 sums.2.1 sums.2.2 keepPixel)
    ((productReal.zip productImag).zip (slavePower.zip masterPower)) keep

end CoherenceComputation

/-! ## The reference -/

/-- The bands of the product. -/
structure ProductBands (F : Type) where
  masterReal : RasterBand F
  masterImag : RasterBand F
  slaveReal : RasterBand F
  slaveImag : RasterBand F
  etadIfg : Option (RasterBand F)

/-- What is read of the bands for a tile. -/
def ProductBands.read {F : Type} (bands : ProductBands F) (tile : CohTile) : DeviceBands F where
  dBandMasterReal := rasterRead bands.masterReal tile.tileIn.window
  dBandMasterImag := rasterRead bands.masterImag tile.tileIn.window
  dBandSlaveReal := rasterRead bands.slaveReal tile.tileIn.window
  dBandSlaveImag := rasterRead bands.slaveImag tile.tileIn.window
  dEtadIfg := bands.etadIfg.map fun etadIfg => rasterRead etadIfg tile.tileIn.window

/-- The polynomial of a burst at a line of it and a column of the band. -/
def FlatEarth.polynomialAt {K : Type} [Field K] (w : FlatEarth K) (coefs : List K)
    (line column : K) : K :=
  ∑ p ∈ Finset.range (nrCoeffs w.srpPolynomialDegree), coefs.getD p 0 *
    monomialAt w.srpPolynomialDegree p (coordinate (w.generator.linesPerBurst.1 - 1) line)
      (coordinate (w.generator.bandXSize.1 - 1) column)

namespace CoherenceComputation

variable {K F : Type} [Field K] [AddZeroClass F] [Sub F] [Neg F] [Mul F]
  (c : CoherenceComputation K F) (bands : ProductBands F)

/-- The flat-earth phase at a pixel of the band. -/
def phaseAt (k : Int × Int) : K :=
  let burst := k.2 / c.flatEarth.generator.linesPerBurst.1
  let line := k.2 - burst * c.flatEarth.generator.linesPerBurst.1
  c.flatEarth.polynomialAt (c.dBurstCoeffs.getD burst.toNat []) (line : K) (k.1 : K)

def masterAt (k : Int × Int) : F × F := (bands.masterReal k, bands.masterImag k)

/-- The secondary sample after the ETAD correction. -/
def correctedAt (k : Int × Int) : F × F :=
  let slave := (bands.slaveReal k, bands.slaveImag k)
  match bands.etadIfg with
  | none => slave
  | some etadIfg => c.math.secondaryEtadCorrection (etadIfg k) slave

/-- The secondary sample after both corrections. -/
def slaveAt (k : Int × Int) : F × F :=
  if c.subtractFlatEarth then
    c.math.slaveMultiplyComplexReferencePhase (c.phaseAt k) (c.correctedAt bands k)
  else c.correctedAt bands k

/-- The flag of a pixel: its own sample is not zero, and its own phase is finite. -/
def keepAt [LE F] [DecidableLE F] (k : Int × Int) : Bool :=
  (match bands.etadIfg with
    | none => true
    | some etadIfg => c.math.isFinite (etadIfg k)) && c.math.keepsSample (bands.slaveReal k)

/-- The coherence at a pixel of the band, by the sums over its window. -/
def coherenceOf [Div F] [LE F] [DecidableLE F] [LT F] [DecidableLT F] (k : Int × Int) : F :=
  let sum (band : Int × Int → F) : F :=
    c.flatEarth.generator.windowedSum (fun x y => band (x, y)) k.1 k.2
  c.math.filteredCoherenceProduct
    (sum fun k' => (dataMasterNorm (masterAt bands k') (c.slaveAt bands k')).1,
      sum fun k' => (dataMasterNorm (masterAt bands k') (c.slaveAt bands k')).2)
    (sum fun k' => norm (c.slaveAt bands k')) (sum fun k' => norm (masterAt bands k'))
    (c.keepAt bands k)

end CoherenceComputation

/-! ## What the kernels read -/

section Reads

variable {F R : Type} {tile : CohTile}

/-- The memory of a band of the tile. -/
theorem vectorIndex_rasterRead (band : RasterBand R) (hwidth : 0 ≤ tile.tileIn.getXSize) {idx : Int}
    (h0 : 0 ≤ idx) (hlt : idx < tile.tileIn.getXSize * tile.tileIn.getYSize) :
    vectorIndex (rasterRead band tile.tileIn.window) idx =
      .ok (tileData tile (fun x y => band (x, y)) idx) := by
  have hcount : idx.toNat < Util.pixelCount tile.tileIn.window := by
    rw [CUDAAlgorithmRunner.pixelCount_window hwidth, Tile.pixelCount]
    omega
  refine vectorIndex_eq_ok.mpr ⟨h0, ?_⟩
  rw [rasterRead, List.getElem?_map, List.getElem?_range hcount, Option.map_some,
    Int.toNat_of_nonneg h0]
  rfl

/-- No thread reads outside of the tile, and each gets the sum of its window. -/
theorem sumSurroundingsOf_rasterRead [AddZeroClass F] (cohWindowRg cohWindowAz : Int)
    (band : RasterBand F) (hwidth : 0 ≤ tile.tileIn.getXSize) (columnIdx rowIdx : Int) :
    sumSurroundingsOf cohWindowRg cohWindowAz tile (rasterRead band tile.tileIn.window) columnIdx
        rowIdx =
      .ok (sumSurroundings cohWindowRg cohWindowAz tile (fun x y => band (x, y)) columnIdx
        rowIdx) := by
  have hstart (z i : Int) (hi : startRange z ≤ i) : 0 ≤ z + i := by
    rw [CohTilesGenerator.startRange_eq] at hi
    omega
  unfold sumSurroundingsOf sumSurroundings
  refine Outcome.foldlM_eq_ok (fun i hi pixelValue => ?_) 0
  have hrow := hstart (rowIdx - tile.yMinPad) i (mem_intRange.mp hi).1
  refine Outcome.bind_eq_ok.mpr ⟨_, Outcome.foldlM_eq_ok (fun j hj acc => ?_) 0, rfl⟩
  have hcolumn := hstart (columnIdx - tile.xMinPad) j (mem_intRange.mp hj).1
  have hidx := Int.add_nonneg (Int.mul_nonneg hrow hwidth) hcolumn
  dsimp only
  split_ifs with hlt
  · rw [vectorIndex_rasterRead band hwidth hidx hlt]
    rfl
  · rfl

/-- A kernel that gives each pixel of the output its value of a band. -/
theorem overTileOut_eq {kernel : Int → Int → Outcome R} {band : RasterBand R}
    (hwidth : 0 ≤ tile.tileOut.getXSize)
    (h : ∀ k : Int × Int, tile.tileOut.Contains k.1 k.2 →
      kernel (k.1 - tile.tileOut.xMin) (k.2 - tile.tileOut.yMin) = .ok (band k)) :
    overTileOut tile kernel = .ok (rasterRead band tile.tileOut.window) := by
  unfold overTileOut rasterRead
  rw [CUDAAlgorithmRunner.pixelCount_window hwidth]
  refine Outcome.collect_map_eq_ok fun i hi => ?_
  rw [List.mem_range, ← CUDAAlgorithmRunner.pixelCount_window hwidth] at hi
  obtain ⟨k, hk, hindex⟩ := exists_pixel hi
  obtain ⟨-, hx, hy⟩ := Rectangle.flatIndex hk
  rw [← pixelIndex_cast hk, hindex] at hx hy
  have hvalue := h k (CUDAAlgorithmRunner.Tile.window_contains.mp hk)
  rw [show k = (tile.tileOut.window.x + i % tile.tileOut.window.width,
    tile.tileOut.window.y + i / tile.tileOut.window.width) from Prod.ext hx.symm hy.symm] at hvalue
  rw [← hvalue]
  show _ = kernel (tile.tileOut.xMin + i % tile.tileOut.getXSize - tile.tileOut.xMin)
    (tile.tileOut.yMin + i / tile.tileOut.getXSize - tile.tileOut.yMin)
  rw [add_sub_cancel_left, add_sub_cancel_left]

end Reads

/-! ## The phases of a tile -/

/-- A matrix that has the values of a band is what is read of it. -/
theorem columnMajor_eq_rasterRead {R : Type} {window : Rectangle} {width height : Nat}
    {f : Nat → Nat → R} {band : RasterBand R} (hwidth : window.width = width)
    (hheight : window.height = height)
    (h : ∀ i < width, ∀ j < height, f i j = band (window.x + i, window.y + j)) :
    columnMajor width height f = rasterRead band window := by
  refine eq_rasterRead ?_ fun k hk => ?_
  · rw [length_columnMajor, Util.pixelCount, hwidth, hheight, Int.toNat_natCast, Int.toNat_natCast]
  · simp only [Rectangle.Contains] at hk
    obtain ⟨i, hi⟩ := Int.eq_ofNat_of_zero_le (show 0 ≤ k.1 - window.x by omega)
    obtain ⟨j, hj⟩ := Int.eq_ofNat_of_zero_le (show 0 ≤ k.2 - window.y by omega)
    have hindex : pixelIndex window k = j * width + i := by
      rw [pixelIndex, hi, hj, hwidth]
      omega
    rw [hindex, getElem?_columnMajor f (by omega) (by omega), h i (by omega) j (by omega)]
    refine congrArg some (congrArg band (Prod.ext ?_ ?_))
    · show window.x + i = k.1
      omega
    · show window.y + j = k.2
      omega

namespace CoherenceComputation

section Phases

variable {K F : Type} [Field K] [LinearOrder K] [FloorRing K] (c : CoherenceComputation K F)

/-- The coefficients are those of the bursts, and the tiles have the axes that the polynomials are
evaluated on. -/
structure Prepared (tiles : List CohTile) : Prop where
  coeffs : c.flatEarth.coherencePreTileCalc = .ok c.dBurstCoeffs
  lines : c.flatEarth.generator.linesPerBurst.1 ≠ 1
  columns : c.flatEarth.generator.bandXSize.1 ≠ 1
  axes : ∀ t ∈ tiles, t.tileIn.getXSize ≠ 1

variable {c}

omit [FloorRing K] in
/-- A coefficient for each of the monomials. -/
theorem length_burstCoeffs {w : FlatEarth K} {burst : Nat} {coefs : List K}
    (h : w.burstCoeffs burst = .ok coefs) : coefs.length = nrCoeffs w.srpPolynomialDegree := by
  refine Outcome.of_bind_eq_ok h fun rows _ h => ?_
  cases h
  exact List.length_ofFn

/-- The phases of a tile are those of the band. -/
theorem Prepared.flatEarthPhase_eq [IsStrictOrderedRing K] {tiles : List CohTile}
    (h : c.Prepared tiles) {tileY tileX : Int}
    (htile : c.flatEarth.generator.IsBurstTile (c.flatEarth.generator.tileAt tileY tileX))
    (hmem : c.flatEarth.generator.tileAt tileY tileX ∈ tiles)
    (hwidth : 0 < (c.flatEarth.generator.tileAt tileY tileX).tileIn.getXSize) :
    ∃ coefs, vectorAt c.dBurstCoeffs tileY = .ok coefs ∧
      c.flatEarth.flatEarthPhase (c.flatEarth.generator.tileAt tileY tileX) coefs =
        .ok (rasterRead c.phaseAt
          (c.flatEarth.generator.tileAt tileY tileX).tileIn.window) := by
  set w := c.flatEarth
  set tile := w.generator.tileAt tileY tileX with htileAt
  have hpos := w.generator.linesPerBurst.2.1
  have hnonneg : 0 ≤ tileY := htile.burst_nonneg
  have hlt : tileY < w.generator.yTiles := htile.burst_lt
  have hbursts := w.bursts_le
  have haxis := h.axes tile hmem
  obtain ⟨hcoeffs, heach⟩ := Outcome.of_collect_map h.coeffs []
  set coefs := (w.burstCoeffs tileY.toNat).getD [] with hcoefs
  have hin : tileY.toNat ∈ List.range w.nrOfBursts := List.mem_range.mpr (by omega)
  have hlength := length_burstCoeffs (heach tileY.toNat hin)
  have hat : c.dBurstCoeffs[tileY.toNat]? = some coefs := by
    rw [hcoeffs, List.getElem?_map, List.getElem?_range (List.mem_range.mp hin), Option.map_some]
  refine ⟨coefs, vectorAt_eq_ok.mpr ⟨hnonneg, hat⟩, ?_⟩
  obtain ⟨width, hwidthOf⟩ := Int.eq_ofNat_of_zero_le hwidth.le
  obtain ⟨height, hheight⟩ := Int.eq_ofNat_of_zero_le hpos.le
  have hsize := htile.width_lt
  have hlines : w.generator.linesPerBurst.1 ≠ 1 := h.lines
  have hcolumns : w.generator.bandXSize.1 ≠ 1 := h.columns
  have hphases := FlatEarth.flatEarthPhase_eq
    (show w.generator.linesPerBurst.1 - 1 ≠ 0 by omega)
    (show w.generator.bandXSize.1 - 1 ≠ 0 by omega) hwidthOf (by omega) (by omega)
    htile.burstSize htile.lines hheight fun p => coefs.getD p 0
  rw [← hlength, ← eq_map_range_getD] at hphases
  rw [hphases]
  refine congrArg Outcome.ok (columnMajor_eq_rasterRead hwidthOf (htile.lines.trans hheight)
    fun i _ j hj => ?_)
  -- the line of the band is one of the burst of the tile
  have hburst : (tileY * w.generator.linesPerBurst.1 + j) / w.generator.linesPerBurst.1 =
      tileY := by
    rw [Int.add_comm, Int.add_mul_ediv_right _ _ hpos.ne', Int.ediv_eq_zero_of_lt (by omega)
      (by omega), zero_add]
  have hline : tileY * w.generator.linesPerBurst.1 + j - tileY * w.generator.linesPerBurst.1 = j :=
    by omega
  show _ = w.polynomialAt (c.dBurstCoeffs.getD
      ((tileY * w.generator.linesPerBurst.1 + j) / w.generator.linesPerBurst.1).toNat [])
    ((tileY * w.generator.linesPerBurst.1 + j -
      (tileY * w.generator.linesPerBurst.1 + j) / w.generator.linesPerBurst.1 *
        w.generator.linesPerBurst.1 : Int) : K) ((tile.tileIn.xMin + i : Int) : K)
  rw [hburst, hline, List.getD_eq_getElem?_getD, hat, Option.getD_some, hlength]
  push_cast
  rfl

end Phases

/-! ## The kernels of a tile -/

/-- A pixel in the memory of a band. -/
theorem vectorIndex_pixel {R : Type} (band : RasterBand R) {tile : CohTile} {k : Int × Int}
    (hk : tile.tileIn.Contains k.1 k.2) :
    vectorIndex (rasterRead band tile.tileIn.window)
        ((k.2 - tile.tileIn.yMin) * tile.tileIn.getXSize + (k.1 - tile.tileIn.xMin)) =
      .ok (band k) := by
  have hwindow := CUDAAlgorithmRunner.Tile.window_contains.mpr hk
  have hplace : (k.2 - tile.tileIn.yMin) * tile.tileIn.getXSize + (k.1 - tile.tileIn.xMin) =
      (pixelIndex tile.tileIn.window k : Int) := by
    rw [pixelIndex_cast hwindow]
    exact Int.add_comm _ _
  rw [hplace]
  refine vectorIndex_eq_ok.mpr ⟨Int.natCast_nonneg _, ?_⟩
  rw [Int.toNat_natCast, getElem?_rasterRead band hwindow]

/-- The output of a tile is part of its input. -/
theorem contains_tileIn {g : CohTilesGenerator} (h : g.ColumnsFit)
    (hwindow : 2 * g.cohX ≤ g.tileXSize.1) {tileY tileX : Int} (hX : 0 ≤ tileX)
    (hXlast : tileX < g.xTiles) {k : Int × Int}
    (hk : (g.tileAt tileY tileX).tileOut.Contains k.1 k.2) :
    (g.tileAt tileY tileX).tileIn.Contains k.1 k.2 := by
  obtain ⟨-, hin, -, hout, -, -, -⟩ := h.tile_columns hwindow hX hXlast
  have hx : g.tileXSize.1 * tileX ≤ k.1 := hk.1
  have hx' : k.1 ≤ g.outXMax tileX := hk.2.1
  exact ⟨hin.trans hx, hx'.trans hout, hk.2.2.1, hk.2.2.2⟩

/-- The flag of a pixel is read at the pixel. -/
theorem boolImageOf_tileAt {F : Type} {g : CohTilesGenerator} (h : g.ColumnsFit)
    (hwindow : 2 * g.cohX ≤ g.tileXSize.1) {tileY tileX : Int} (hX : 0 ≤ tileX)
    (hXlast : tileX < g.xTiles) (slaveReal : RasterBand F) (etadIfg : Option (RasterBand F))
    (keeps isFinite : F → Bool) {k : Int × Int}
    (hk : (g.tileAt tileY tileX).tileOut.Contains k.1 k.2) :
    boolImageOf g.cohWinRg.1 g.cohWinAz.1 (g.tileAt tileY tileX)
        (rasterRead slaveReal (g.tileAt tileY tileX).tileIn.window)
        (etadIfg.map fun etadIfg => rasterRead etadIfg (g.tileAt tileY tileX).tileIn.window) keeps
        isFinite (k.1 - (g.tileAt tileY tileX).tileOut.xMin)
        (k.2 - (g.tileAt tileY tileX).tileOut.yMin) =
      .ok ((match etadIfg with
        | none => true
        | some etadIfg => isFinite (etadIfg k)) && keeps (slaveReal k)) := by
  obtain ⟨-, -, -, -, -, hpad, -⟩ := h.tile_columns hwindow hX hXlast
  have hin := contains_tileIn h hwindow hX hXlast hk
  -- the half windows and the pads cancel
  have hcolumn : k.1 - (g.tileAt tileY tileX).tileOut.xMin + (g.cohWinRg.1 - 1) / 2 -
      (g.tileAt tileY tileX).xMinPad = k.1 - (g.tileAt tileY tileX).tileIn.xMin := by
    show k.1 - g.tileXSize.1 * tileX + g.cohX - (if tileX = 0 then g.cohX else 0) =
      k.1 - g.inXMin tileX
    omega
  have hrow : k.2 - (g.tileAt tileY tileX).tileOut.yMin + (g.cohWinAz.1 - 1) / 2 -
      (g.tileAt tileY tileX).yMinPad = k.2 - (g.tileAt tileY tileX).tileIn.yMin := by
    show k.2 - tileY * g.linesPerBurst.1 + g.cohY - g.cohY = k.2 - tileY * g.linesPerBurst.1
    omega
  unfold boolImageOf
  dsimp only
  rw [hcolumn, hrow, vectorIndex_pixel _ hin, Outcome.ok_bind]
  cases etadIfg with
  | none => rfl
  | some etadIfg =>
    dsimp only [Option.map_some]
    rw [vectorIndex_pixel _ hin]
    rfl

section Tiles

variable {K F : Type} [Field K] [LinearOrder K] [IsStrictOrderedRing K] [FloorRing K]
  [AddZeroClass F] [Sub F] [Neg F] [Mul F] [Div F] [LE F] [DecidableLE F] [LT F] [DecidableLT F]
  {c : CoherenceComputation K F}

omit [LinearOrder K] [IsStrictOrderedRing K] [FloorRing K] [Neg F] [Div F] [LE F] [DecidableLE F]
  [LT F] [DecidableLT F] in
theorem correctedSlave_read (bands : ProductBands F) (tile : CohTile) :
    c.correctedSlave (bands.read tile) =
      rasterRead (c.correctedAt bands) tile.tileIn.window := by
  unfold correctedSlave correctedAt ProductBands.read
  cases bands.etadIfg with
  | none => exact zip_rasterRead _ _ _
  | some etadIfg =>
    rw [zip_rasterRead]
    exact zipWith_rasterRead _ _ _ _

omit [Neg F] [Div F] [LE F] [DecidableLE F] [LT F] [DecidableLT F] in
/-- Each sample of a tile is turned by its own phases. -/
theorem turnedSlave_read (bands : ProductBands F) {tiles : List CohTile}
    (hprepared : c.subtractFlatEarth = true → c.Prepared tiles) {tileY tileX : Int}
    (htile : c.flatEarth.generator.IsBurstTile (c.flatEarth.generator.tileAt tileY tileX))
    (hmem : c.flatEarth.generator.tileAt tileY tileX ∈ tiles)
    (hwidth : 0 < (c.flatEarth.generator.tileAt tileY tileX).tileIn.getXSize) :
    c.turnedSlave (c.flatEarth.generator.tileAt tileY tileX)
        (bands.read (c.flatEarth.generator.tileAt tileY tileX)) =
      .ok (rasterRead (c.slaveAt bands)
        (c.flatEarth.generator.tileAt tileY tileX).tileIn.window) := by
  unfold turnedSlave slaveAt
  rw [correctedSlave_read]
  cases hsubtract : c.subtractFlatEarth with
  | true =>
    obtain ⟨coefs, hcoefs, hphases⟩ :=
      (hprepared hsubtract).flatEarthPhase_eq htile hmem hwidth
    rw [if_pos rfl, show (c.flatEarth.generator.tileAt tileY tileX).burstIndex = tileY from rfl,
      hcoefs, Outcome.ok_bind, hphases, Outcome.ok_bind, zipWith_rasterRead]
    rfl
  | false => rfl

variable {tiles : List CohTile}

/-- The kernels of a tile read only what was read for it, and give each pixel of its output the
coherence of the band. -/
theorem launchCoherence_tileAt (bands : ProductBands F)
    (hrange : c.flatEarth.generator.InRange) (hnot : ¬ c.flatEarth.generator.Rejected)
    (hside : c.flatEarth.generator.xTiles = 1 ∨ c.flatEarth.generator.cohX = 0 ∨
      c.flatEarth.generator.linesPerBurst.1 = 1)
    (hprepared : c.subtractFlatEarth = true → c.Prepared tiles) {tileY tileX : Nat}
    (hcell : (tileY, tileX) ∈ c.flatEarth.generator.cells)
    (htile : c.flatEarth.generator.IsBurstTile (c.flatEarth.generator.tileAt tileY tileX))
    (hmem : c.flatEarth.generator.tileAt tileY tileX ∈ tiles) :
    c.launchCoherence (c.flatEarth.generator.tileAt tileY tileX)
        (bands.read (c.flatEarth.generator.tileAt tileY tileX)) =
      .ok (rasterRead (c.coherenceOf bands)
        (c.flatEarth.generator.tileAt tileY tileX).tileOut.window) := by
  set g := c.flatEarth.generator with hg
  set tile := g.tileAt tileY tileX with htileAt
  have hX : 0 ≤ (tileX : Int) := Int.natCast_nonneg tileX
  have hXlast := (g.mem_cells.mp hcell).2
  have hwindow := hrange.window hnot
  have hcorrect := hrange.bandCorrect hnot hside
  obtain ⟨-, hin, hout, hend, -, -, -⟩ := hrange.columns.tile_columns hwindow hX hXlast
  have hwidth : 0 < tile.tileIn.getXSize := by
    rw [htileAt, CohTilesGenerator.tileAt_getXSize]
    omega
  have hwidthOut : 0 ≤ tile.tileOut.getXSize := by
    show 0 ≤ g.outXMax tileX - g.tileXSize.1 * tileX + 1
    omega
  have hkeep : overTileOut tile (boolImageOf g.cohWinRg.1 g.cohWinAz.1 tile
      (bands.read tile).dBandSlaveReal (bands.read tile).dEtadIfg c.math.keepsSample
        c.math.isFinite) = .ok (rasterRead (c.keepAt bands) tile.tileOut.window) :=
    overTileOut_eq hwidthOut fun k hk =>
      boolImageOf_tileAt hrange.columns hwindow hX hXlast _ _ _ _ hk
  have hsum (band : RasterBand F) : overTileOut tile (sumSurroundingsOf g.cohWinRg.1 g.cohWinAz.1
      tile (rasterRead band tile.tileIn.window)) =
        .ok (rasterRead (fun k => g.windowedSum (fun x y => band (x, y)) k.1 k.2)
          tile.tileOut.window) := by
    refine overTileOut_eq hwidthOut fun k hk => ?_
    rw [sumSurroundingsOf_rasterRead _ _ band hwidth.le]
    exact congrArg Outcome.ok (hcorrect.sums F _ tile
      (List.mem_map.mpr ⟨(tileY, tileX), hcell, rfl⟩) k.1 k.2 hk)
  have hslave := turnedSlave_read bands hprepared htile hmem hwidth
  have hmaster : (bands.read tile).dBandMasterReal.zip (bands.read tile).dBandMasterImag =
      rasterRead (masterAt bands) tile.tileIn.window := zip_rasterRead _ _ _
  unfold launchCoherence
  dsimp only
  rw [← hg, hkeep, Outcome.ok_bind, hslave, Outcome.ok_bind, hmaster, zipWith_rasterRead,
    rasterRead_map, rasterRead_map, rasterRead_map, rasterRead_map, hsum, Outcome.ok_bind, hsum,
    Outcome.ok_bind, hsum, Outcome.ok_bind, hsum, Outcome.ok_bind, zip_rasterRead, zip_rasterRead,
    zip_rasterRead, zipWith_rasterRead]
  rfl

end Tiles

end CoherenceComputation

end Alus.Coherence
