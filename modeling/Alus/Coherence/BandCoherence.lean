import Alus.Coherence.CoherenceComputation

/-!
# The coherence of a band

`CUDAAlgorithmRunner` with `CohCuda` over the tiles of `CohTilesGenerator`. What the threads write,
in whatever order they come to it, is the coherence of the band: the estimate of each pixel from the
window around it, in which the tiles do not occur.
-/

namespace Alus.Coherence

open Alus.Lib Alus.Util

/-! ## The runner -/

section Runner

variable {F : Type}

/-- The bands of the product are those of the reader. -/
structure GdalTileReader.Reads (tileReader : GdalTileReader F) (bands : ProductBands F) : Prop where
  masterReal : tileReader.band InputBand.masterReal.number = some bands.masterReal
  masterImag : tileReader.band InputBand.masterImag.number = some bands.masterImag
  slaveReal : tileReader.band InputBand.slaveReal.number = some bands.slaveReal
  slaveImag : tileReader.band InputBand.slaveImag.number = some bands.slaveImag
  etadIfg : ∀ etadIfg, bands.etadIfg = some etadIfg →
    tileReader.band InputBand.etadIfg.number = some etadIfg

/-- The pixel is one of the band. -/
def CohTilesGenerator.InBand (g : CohTilesGenerator) (k : Int × Int) : Prop :=
  0 ≤ k.1 ∧ k.1 < g.bandXSize.1 ∧ 0 ≤ k.2 ∧ k.2 < g.bandYSize.1

/-- In range, the tiles that are generated are a cover. -/
theorem CohTilesGenerator.covers_of_generateTiles {g : CohTilesGenerator} {tiles : List CohTile}
    (hok : g.generateTiles = .ok tiles) (hrange : g.InRange) : g.Covers false tiles := by
  have hnot := (g.generateTiles_ok hok).2.2.1
  obtain rfl := Outcome.ok.inj (hok.symm.trans (hrange.generateTiles_eq hnot))
  exact hrange.covers hnot (by simp)

namespace CoherenceComputation

variable {K : Type} [Field K] [LinearOrder K] [FloorRing K] [AddZeroClass F] [Sub F] [Neg F]
  [Mul F] [Div F] [LE F] [DecidableLE F] [LT F] [DecidableLT F] (c : CoherenceComputation K F)

/-- `CohCuda::TileCalc`, of the bands in the order in which they are read. -/
def tileCalc (tile : CohTile) : List (List F) → Outcome (List F)
  | [masterReal, masterImag, slaveReal, slaveImag] =>
    c.launchCoherence tile ⟨masterReal, masterImag, slaveReal, slaveImag, none⟩
  | [masterReal, masterImag, slaveReal, slaveImag, etadIfg] =>
    c.launchCoherence tile ⟨masterReal, masterImag, slaveReal, slaveImag, some etadIfg⟩
  | _ => .undefined

/-- The runner with these kernels. What they leave in the output where they are not defined is left
open; here it is zero. -/
def runner (tileReader : GdalTileReader F) (applyEtad : Bool) : CUDAAlgorithmRunner F where
  tileReader := tileReader
  isEtadEnabled := applyEtad
  tileCalc tile bands := (List.range tile.tileOut.pixelCount).map fun i =>
    ((c.tileCalc tile bands).getD []).getD i 0
  length_tileCalc tile bands := by rw [List.length_map, List.length_range]

/-- What a state of the runner should be: the pixels of the band get their coherence, and no other
pixels are written. -/
structure EstimatesBand (bands : ProductBands F) (tileReader : GdalTileReader F)
    (tiles : List CohTile) (initial : Int × Int → Option F)
    (s : WorkersState CohTile (Fin (CUDAAlgorithmRunner.nThreads tiles)) (ThreadContext F)
      (TileData F)) : Prop where
  defined : ∀ w tile, s.pool.workers w = .processing tile → ¬ GoesWrong (s.streams w)
  outside : ∀ k, ¬ c.flatEarth.generator.InBand k → outputImage rasterWrite initial s k = initial k
  inside : ∀ k, c.flatEarth.generator.InBand k →
    outputImage rasterWrite initial s k = initial k ∨
      outputImage rasterWrite initial s k = some (c.coherenceOf bands k)
  complete : (∀ w, s.pool.workers w = .stopped) → s.pool.exception = false →
    ∀ k, c.flatEarth.generator.InBand k →
      outputImage rasterWrite initial s k = some (c.coherenceOf bands k)
  goesOn : (∃ w, s.pool.workers w ≠ .stopped) → ∃ t,
    WorkersStep (c.runner tileReader bands.etadIfg.isSome).processTile s t ∧
      t.pool.exception = s.pool.exception

variable {c} {bands : ProductBands F} {tileReader : GdalTileReader F}

/-- The threads pass the kernels what they have read. -/
theorem tileCalc_bandData (hreads : tileReader.Reads bands) (tile : CohTile) :
    c.tileCalc tile ((c.runner tileReader bands.etadIfg.isSome).inputBands.map
        ((c.runner tileReader bands.etadIfg.isSome).bandData tile)) =
      c.launchCoherence tile (bands.read tile) := by
  have hdata {b : InputBand} {band : RasterBand F}
      (h : tileReader.band b.number = some band) :
      (c.runner tileReader bands.etadIfg.isSome).bandData tile b =
        rasterRead band tile.tileIn.window := by
    show (match tileReader.band b.number with
      | some band => rasterRead band tile.tileIn.window
      | none => []) = _
    rw [h]
  have hmasterReal := hdata hreads.masterReal
  have hmasterImag := hdata hreads.masterImag
  have hslaveReal := hdata hreads.slaveReal
  have hslaveImag := hdata hreads.slaveImag
  have hetad := fun etadIfg h => hdata (hreads.etadIfg etadIfg h)
  unfold ProductBands.read
  cases hcase : bands.etadIfg with
  | none =>
    rw [hcase] at hmasterReal hmasterImag hslaveReal hslaveImag
    simp only [CUDAAlgorithmRunner.inputBands, runner, Option.isSome_none, Bool.false_eq_true,
      if_false, List.append_nil, List.map_cons, List.map_nil, tileCalc, Option.map_none] at *
    rw [hmasterReal, hmasterImag, hslaveReal, hslaveImag]
  | some etadIfg =>
    have hetad := hetad etadIfg hcase
    rw [hcase] at hmasterReal hmasterImag hslaveReal hslaveImag hetad
    simp only [CUDAAlgorithmRunner.inputBands, runner, Option.isSome_some, if_true,
      List.cons_append, List.nil_append, List.map_cons, List.map_nil, tileCalc,
      Option.map_some] at *
    rw [hmasterReal, hmasterImag, hslaveReal, hslaveImag, hetad]

/-- The bands that are read are there. -/
theorem hasBands (hreads : tileReader.Reads bands) :
    (c.runner tileReader bands.etadIfg.isSome).HasBands := by
  intro b hb
  cases b with
  | masterReal => exact ⟨_, hreads.masterReal⟩
  | masterImag => exact ⟨_, hreads.masterImag⟩
  | slaveReal => exact ⟨_, hreads.slaveReal⟩
  | slaveImag => exact ⟨_, hreads.slaveImag⟩
  | etadIfg =>
    cases hcase : bands.etadIfg with
    | some etadIfg => exact ⟨_, hreads.etadIfg etadIfg hcase⟩
    | none =>
      rw [hcase] at hb
      exact absurd hb (by simp [CUDAAlgorithmRunner.inputBands, runner])

variable [IsStrictOrderedRing K] {tiles : List CohTile}

section Painting

variable (hreads : tileReader.Reads bands) (hok : c.flatEarth.generator.generateTiles = .ok tiles)
  (hrange : c.flatEarth.generator.InRange)
  (hside : c.flatEarth.generator.xTiles = 1 ∨ c.flatEarth.generator.cohX = 0 ∨
    c.flatEarth.generator.linesPerBurst.1 = 1)
  (hprepared : c.subtractFlatEarth = true → c.Prepared tiles)

include hreads hok hrange hside hprepared

/-- The kernels give each tile its part of the coherence of the band. -/
theorem coherence_tile {tile : CohTile} (htile : tile ∈ tiles) :
    (c.runner tileReader bands.etadIfg.isSome).coherence tile =
      rasterRead (c.coherenceOf bands) tile.tileOut.window := by
  have hnot := (c.flatEarth.generator.generateTiles_ok hok).2.2.1
  have hburst := CohTilesGenerator.isBurstTile_of_mem hok htile
  have htiles := Outcome.ok.inj (hok.symm.trans (hrange.generateTiles_eq hnot))
  have hlaunch : c.launchCoherence tile (bands.read tile) =
      .ok (rasterRead (c.coherenceOf bands) tile.tileOut.window) := by
    obtain ⟨⟨tileY, tileX⟩, hcell, rfl⟩ := List.mem_map.mp (htiles ▸ htile)
    exact launchCoherence_tileAt bands hrange hnot hside hprepared hcell hburst htile
  have hproper := ((CohTilesGenerator.covers_of_generateTiles hok hrange).proper tile htile).1
  have hcount : tile.tileOut.pixelCount =
      (rasterRead (c.coherenceOf bands) tile.tileOut.window).length := by
    rw [length_rasterRead, CUDAAlgorithmRunner.pixelCount_window]
    show 0 ≤ tile.tileOut.xMax - tile.tileOut.xMin + 1
    omega
  show (List.range tile.tileOut.pixelCount).map (fun i => ((c.tileCalc tile
    ((c.runner tileReader bands.etadIfg.isSome).inputBands.map
      ((c.runner tileReader bands.etadIfg.isSome).bandData tile))).getD []).getD i 0) = _
  rw [tileCalc_bandData hreads, hlaunch, hcount]
  exact (eq_map_range_getD _ 0).symm

/-- Every tile gets its part of one image. -/
theorem paintsTiles_coherence :
    PaintsTiles rasterWrite tiles (fun tile => (tile.tileOut.window,
        ((c.runner tileReader bands.etadIfg.isSome).coherence tile).map some))
      (fun tile k => tile.tileOut.window.Contains k.1 k.2)
      fun _ k => some (c.coherenceOf bands k) := by
  refine paintsTiles_rasterWrite _ _ _ (fun tile htile k hin => ?_) fun _ _ _ _ _ _ _ => rfl
  rw [coherence_tile hreads hok hrange hside hprepared htile, rasterRead_map,
    getElem?_rasterRead _ hin, Option.join_some]

end Painting

end CoherenceComputation

end Runner

/-! ## One tile -/

/-- Three columns in one tile, with a window of one sample, on one burst of two lines. The phase
that is fitted is zero. -/
def oneTile : FlatEarth Rat where
  generator := ⟨⟨3, three_isSize⟩, ⟨2, two_isSize⟩, ⟨3, three_isSize⟩, ⟨2, two_isSize⟩,
    ⟨1, one_isSize⟩, ⟨1, one_isSize⟩, ⟨2, two_isSize⟩⟩
  nrOfBursts := 1
  srpPolynomialDegree := 0
  positions := [(0, 0)]
  referencePhase _ _ _ := 0
  solve n b i := b i / n i i
  bursts_le := by decide

/-- The functions at a phase of zero, at one, and at samples on the real axis. -/
def axisMath : DeviceMath Rat Rat where
  cos _ := 1
  sin _ := 0
  cosf _ := 1
  sinf _ := 0
  fabs x := max x (-x)
  abs z := max z.1 (-z.1)
  sqrt x := x
  isFinite _ := true
  epsilon := 1 / 8388608

def oneTileComputation : CoherenceComputation Rat Rat where
  flatEarth := oneTile
  subtractFlatEarth := true
  math := axisMath
  dBurstCoeffs := [[0]]

/-- Both acquisitions have ones. -/
def onesBands : ProductBands Rat := ⟨fun _ => 1, fun _ => 0, fun _ => 1, fun _ => 0, none⟩

def onesReader : GdalTileReader Rat := ⟨[[fun _ => 1, fun _ => 0, fun _ => 1, fun _ => 0]]⟩

/-- The tile of the whole band. -/
def wholeTile : CohTile where
  tileX := 0
  tileY := 0
  tileIn := ⟨2, 1, 0, 0⟩
  tileOut := ⟨2, 1, 0, 0⟩
  yMinPad := 0
  yMaxPad := 0
  xMinPad := 0
  xMaxPad := 0
  burstIndex := 0
  burstSize := 2

theorem generateTiles_oneTile : oneTile.generator.generateTiles = .ok [wholeTile] := by
  decide +kernel

theorem inRange_oneTile : oneTile.generator.InRange := by
  refine CohTilesGenerator.Runnable.inRange generateTiles_oneTile ⟨by decide, fun x y => ?_,
    by decide, 6, by decide, by decide⟩
  simp [wholeTile, Tile.Contains, oneTile]
  omega

theorem prepared_oneTile : oneTileComputation.Prepared [wholeTile] :=
  ⟨by decide +kernel, by decide, by decide, by decide⟩

end Alus.Coherence
