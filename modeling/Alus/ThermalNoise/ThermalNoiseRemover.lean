import Alus.ThermalNoise.SlcNoiseLut
import Alus.Util.InPlaceTiles

/-!
# Thermal noise removal of a band

`ThermalNoiseRemover::SetTargetImages` (`thermal-noise-removal`): up to three threads take tiles
from the queue. The noise table of a tile is built for its place in the metadata; the elements of
the tile are read from their place in the source, and the kernel replaces each by its intensity
without the noise. What gets below zero becomes the floor value.
-/

namespace Alus.ThermalNoise

open Alus.Lib Alus.Util

variable {T : Type} [Field T] [LinearOrder T]

/-! ## The kernels -/

/-- The four bytes of an element. -/
inductive IntensityData (T : Type) where
  | inputComplex (i q : Int)
  | inputAmplitude (amplitude : Nat)
  | output (value : T)

/-- The result in an element. -/
def IntensityData.result? : IntensityData T → Option T
  | .output value => some value
  | _ => none

/-- The noise table of a tile, by row and column from its first. -/
abbrev NoiseMatrix (T : Type) := Nat × Nat → Option T

/-- The two kinds of source, each with its noise metadata. -/
inductive NoiseSource (T : Type) [Field T] [LinearOrder T] where
  | complex (info : SlcNoiseInfo T) (dev : SlcDevice) (pixel : RasterBand (Int × Int))
  | amplitude (info : ThermalNoiseInfo T) (pixel : RasterBand Nat)

namespace NoiseSource

def read : NoiseSource T → RasterBand (IntensityData T)
  | .complex _ _ pixel => fun k => .inputComplex (pixel k).1 (pixel k).2
  | .amplitude _ pixel => fun k => .inputAmplitude (pixel k)

/-- `dn_2`, from an element of the source's kind. -/
def intensity : NoiseSource T → IntensityData T → Option T
  | .complex .., .inputComplex i q => some ((i * i : T) + q * q)
  | .amplitude .., .inputAmplitude i => some ((i : T) * i)
  | _, _ => none

/-- `BuildNoiseLutForTOPSSLC` or `BuildNoiseLutForTOPSGRD`. -/
def buildNoiseLut (source : NoiseSource T) (metadataTile : Rectangle) : Option (NoiseMatrix T) :=
  match source with
  | .complex info dev _ => toOption (buildNoiseLutForTOPSSLC dev metadataTile info)
  | .amplitude info _ => (toOption (ThermalNoise.buildNoiseLut metadataTile info)).map
      fun values cell => some (values cell.1 cell.2)

end NoiseSource

structure ThermalNoiseRemover (T : Type) [Field T] [LinearOrder T] where
  raster : TiledRaster
  source : NoiseSource T
  /-- where the raster begins in the source -/
  sourceDsArea : Int × Int
  subsetOffsetX : Int
  subsetOffsetY : Int
  offsetX_nonneg : 0 ≤ subsetOffsetX
  offsetY_nonneg : 0 ≤ subsetOffsetY
  targetNoDataValue : T
  targetFloorValue : T
  order : LaunchOrder

namespace ThermalNoiseRemover

variable (r : ThermalNoiseRemover T)

/-- The pixels of `ComputeComplexTileKernel` and of `ComputeAmplitudeTileKernel`. -/
def pixelValue (dn2 noise : T) : T :=
  let pixelValue := if dn2 = r.targetNoDataValue then r.targetNoDataValue else dn2 - noise
  if pixelValue < 0 then r.targetFloorValue else pixelValue

def computeTileKernel (tile : Rectangle) (noiseMatrix : NoiseMatrix T)
    (pixels : List (Option (IntensityData T))) : Option (List (Option (IntensityData T))) :=
  launchInPlace (pixelIndex tile)
    (fun k element => do
      let dn2 ← r.source.intensity (← element)
      let noise ← noiseMatrix ((k.2 - tile.y).toNat, (k.1 - tile.x).toNat)
      return some (.output (r.pixelValue dn2 noise)))
    (r.order.pixels tile) pixels

/-! ## The threads -/

def metadataTile (tile : Rectangle) : Rectangle :=
  ⟨tile.x + r.subsetOffsetX, tile.y + r.subsetOffsetY, tile.width, tile.height⟩

/-- The source as it is read: from the area of the raster on. -/
def sourceBand : RasterBand (IntensityData T) := fun k =>
  r.source.read (k.1 + r.sourceDsArea.1, k.2 + r.sourceDsArea.2)

/-- `ComputeComplexTile` and `ComputeAmplitudeTile`. The noise table is ready when it is returned:
the memory of its kernels has been freed. -/
def computeTile (tile : Rectangle) :
    List (HostInstr (TileContext (IntensityData T) (NoiseMatrix T)) (TileData T)) :=
  .host (TileContext.prepareDevice fun _ => r.source.buildNoiseLut (r.metadataTile tile)) ::
    (TileContext.loadTile r.sourceBand tile ++
      TileContext.storeTile (r.computeTileKernel tile) IntensityData.result? tile)

/-- `sizeof(s1tbx::DeviceNoiseVector)`. -/
def sizeOfDeviceNoiseVector : Nat := 48

/-- The bytes that `InitThreadContext` reserves, also for what is not taken from the arena. -/
def devMemBytes : Nat :=
  let tileSize := r.raster.tileWidth.toNat * r.raster.tileHeight.toNat
  let bytes := 8 * tileSize + 4 * tileSize + sizeOfDeviceNoiseVector * 9
  bytes + bytes / 20

/-- `n_threads`. -/
def nThreads (tiles : List Rectangle) : Nat := if 0 < tiles.length / 3 then 3 else 1

/-- The threads over the tiles of a band, each with its buffer and its arena. -/
def setTargetImages (tiles : List Rectangle) :
    System (WorkersState Rectangle (Fin (nThreads tiles))
      (TileContext (IntensityData T) (NoiseMatrix T)) (TileData T)) :=
  workers (Fin (nThreads tiles)) r.computeTile
    (TileContext.Ready (r.raster.tileWidth.toNat * r.raster.tileHeight.toNat) r.devMemBytes) tiles

/-! ## What noise removal is for -/

/-- The noise of a pixel, in the table of its tile. -/
def noiseIn (tile : Rectangle) (k : Int × Int) : Option T := do
  let noiseMatrix ← r.source.buildNoiseLut (r.metadataTile tile)
  noiseMatrix ((k.2 - tile.y).toNat, (k.1 - tile.x).toNat)

/-- The intensity of a pixel without its noise. -/
def denoisedAt (tile : Rectangle) (k : Int × Int) : Option T := do
  let dn2 ← r.source.intensity (r.sourceBand k)
  let noise ← r.noiseIn tile k
  return r.pixelValue dn2 noise

/-- The noise of a pixel in the product: that of the range vector of its burst, or of the last block
that feeds it. -/
def productNoise (k : Int × Int) : Option T :=
  match r.source with
  | .complex info _ _ =>
    (info.rangeVector? (k.2 + r.subsetOffsetY)).map fun v =>
      info.noise v (k.2 + r.subsetOffsetY) (k.1 + r.subsetOffsetX)
  | .amplitude info _ => toOption (info.noiseAt (k.1 + r.subsetOffsetX) (k.2 + r.subsetOffsetY))

/-- The metadata has the noise of a tile. -/
def HasNoise (tile : Rectangle) : Prop :=
  match r.source with
  | .complex info _ _ => ¬ info.Refuses (r.metadataTile tile)
  | .amplitude info _ => info.timeMaps.lineTimes ≠ none

/-- The blocks of an amplitude product do not depend on the tile. -/
def MeetsBlocks (tile : Rectangle) : Prop :=
  match r.source with
  | .complex .. => True
  | .amplitude info _ => info.geometry.TileMeetsBlocks (r.metadataTile tile)

/-! ## The noise of a tile -/

section Noise

variable [IsStrictOrderedRing T] {r} {tile : Rectangle}

/-- Where the metadata has the noise of a tile, its table has it at every pixel. -/
theorem HasNoise.exists_noise (h : r.HasNoise tile) (hinside : tile.Inside r.raster.width
    r.raster.height) :
    ∃ noiseMatrix, r.source.buildNoiseLut (r.metadataTile tile) = some noiseMatrix ∧
      ∀ k : Int × Int, tile.Contains k.1 k.2 →
        ∃ noise, noiseMatrix ((k.2 - tile.y).toNat, (k.1 - tile.x).toNat) = some noise ∧
          (r.MeetsBlocks tile → r.productNoise k = some noise) := by
  obtain ⟨hwidth, hheight, hx, -, hy, -⟩ := hinside
  have hoffsetX := r.offsetX_nonneg
  have hoffsetY := r.offsetY_nonneg
  -- a pixel of the tile has the same place in the tile of the metadata
  have hplace {k : Int × Int} (hk : tile.Contains k.1 k.2) :
      (r.metadataTile tile).Contains (k.1 + r.subsetOffsetX) (k.2 + r.subsetOffsetY) ∧
        k.1 + r.subsetOffsetX - (r.metadataTile tile).x = k.1 - tile.x ∧
        k.2 + r.subsetOffsetY - (r.metadataTile tile).y = k.2 - tile.y := by
    simp only [Rectangle.Contains, metadataTile] at hk ⊢
    omega
  unfold HasNoise at h
  unfold MeetsBlocks productNoise
  cases hsource : r.source with
  | complex info dev pixel =>
    simp only [hsource] at h
    obtain ⟨m, hm, hnoise⟩ := build_filled dev
      ⟨r.metadataTile tile, by simp only [metadataTile]; omega, by simp only [metadataTile]; omega,
        hwidth, hheight⟩ h
    refine ⟨m, by simp [NoiseSource.buildNoiseLut, hm], fun k hk => ?_⟩
    obtain ⟨hin, hcolumn, hrow⟩ := hplace hk
    obtain ⟨v, hv, hcell⟩ := hnoise _ _ hin
    rw [hcolumn, hrow] at hcell
    exact ⟨_, hcell, fun _ => by dsimp only; rw [hv]; rfl⟩
  | amplitude info pixel =>
    simp only [hsource] at h
    obtain ⟨times, htimes⟩ := Option.ne_none_iff_exists'.mp h
    obtain ⟨values, hvalues, -⟩ := buildNoiseLut_apply info (r.metadataTile tile) times.1 times.2
      htimes
    refine ⟨fun cell => some (values cell.1 cell.2), by
      simp [NoiseSource.buildNoiseLut, hvalues], fun k hk => ⟨_, rfl, fun hmeets => ?_⟩⟩
    obtain ⟨hin, hcolumn, hrow⟩ := hplace hk
    have htile := tileNoise_eq_noiseAt hmeets hin
    rw [tileNoise, hvalues, Outcome.ok_bind, hcolumn, hrow] at htile
    simp only [Rectangle.Contains] at hk
    dsimp only
    rw [← htile, Int.toNat_of_nonneg (by omega), Int.toNat_of_nonneg (by omega)]
    rfl

omit [IsStrictOrderedRing T] in
/-- An element as it was read gives an intensity. -/
theorem exists_intensity (r : ThermalNoiseRemover T) (k : Int × Int) :
    ∃ dn2, r.source.intensity (r.sourceBand k) = some dn2 := by
  unfold sourceBand
  cases r.source with
  | complex info dev pixel => exact ⟨_, rfl⟩
  | amplitude info pixel => exact ⟨_, rfl⟩

/-! ## A tile -/

theorem computeTile_triple (hproduct : r.raster.tileWidth * r.raster.tileHeight < 2147483648)
    (htile : tile ∈ calculateTiles r.raster.tileWidth r.raster.tileHeight r.raster.width
      r.raster.height) (hnoise : r.HasNoise tile) :
    HostTriple
      (TileContext.Ready (r.raster.tileWidth.toNat * r.raster.tileHeight.toNat) r.devMemBytes)
      (r.computeTile tile) [(tile, rasterRead (r.denoisedAt tile) tile)]
      (TileContext.Ready (r.raster.tileWidth.toNat * r.raster.tileHeight.toNat) r.devMemBytes) := by
  have hinside := (isPartition_calculateTiles r.raster.columns.size_pos
    r.raster.rows.size_pos).inside tile htile
  obtain ⟨noiseMatrix, hbuild, hcell⟩ := hnoise.exists_noise hinside
  have hsize : pixelCount tile ≤ r.raster.tileWidth.toNat * r.raster.tileHeight.toNat := by
    obtain ⟨hwidth, hheight⟩ := tile_sizes htile
    exact Nat.mul_le_mul (by omega) (by omega)
  have hcount : pixelCount tile < 2 ^ 31 := by
    have hle := pixelCount_le htile
    omega
  have hfits : 4 * pixelCount tile ≤ r.devMemBytes := by
    unfold devMemBytes
    generalize r.raster.tileWidth.toNat * r.raster.tileHeight.toNat = tileSize at hsize
    dsimp only
    omega
  have hvalues : ∀ k : Int × Int, tile.Contains k.1 k.2 →
      ∃ value, r.denoisedAt tile k = some value := by
    intro k hk
    obtain ⟨dn2, hdn2⟩ := r.exists_intensity k
    obtain ⟨noise, hnoise, -⟩ := hcell k hk
    exact ⟨r.pixelValue dn2 noise, by simp [denoisedAt, noiseIn, hdn2, hbuild, hnoise]⟩
  obtain ⟨value, hvalue⟩ := exists_values hvalues
  have hbuilt : HostTriple
      (TileContext.Ready (r.raster.tileWidth.toNat * r.raster.tileHeight.toNat) r.devMemBytes)
      [(.host (TileContext.prepareDevice fun _ => r.source.buildNoiseLut (r.metadataTile tile)) :
        HostInstr (TileContext (IntensityData T) (NoiseMatrix T)) (TileData T))] []
      fun ctx => TileContext.Ready (r.raster.tileWidth.toNat * r.raster.tileHeight.toNat)
        r.devMemBytes ctx ∧ ctx.device = noiseMatrix := by
    refine .host fun ctx hready => ⟨{ ctx with device := noiseMatrix }, ?_, ?_, rfl⟩
    · simp [TileContext.prepareDevice, hbuild]
    · exact ⟨hready.buffer, hready.unused, hready.reserved⟩
  have hload := TileContext.loadTile_triple (F := T) (Q := fun device => device = noiseMatrix)
    r.sourceBand hcount hsize hfits
  have hkernel : r.computeTileKernel tile noiseMatrix ((rasterRead r.sourceBand tile).map some) =
      some ((rasterRead (fun k => .output (value k)) tile).map some) := by
    refine r.order.launchInPlace_pixels fun k hk => ?_
    obtain ⟨dn2, hdn2⟩ := r.exists_intensity k
    obtain ⟨noise, hnoise, -⟩ := hcell k hk
    have hsame := hvalue k hk
    simp only [denoisedAt, noiseIn, hdn2, hbuild, hnoise, Option.bind_eq_bind, Option.bind_some,
      Option.pure_def, Option.some.injEq] at hsame
    simp [hdn2, hnoise, hsame]
  have hstore := TileContext.storeTile_triple r.devMemBytes
    (Q := fun ctx : TileContext (IntensityData T) (NoiseMatrix T) =>
      ctx.devMemArena.usedByteSize.toNat = alignUp 128 (4 * pixelCount tile) ∧
        ctx.device = noiseMatrix)
    (r.computeTileKernel tile) IntensityData.result? (rasterRead r.sourceBand tile)
    (rasterRead (fun k => .output (value k)) tile)
    hsize (length_rasterRead _ tile) fun ctx hdevice => by rw [hdevice.2]; exact hkernel
  have hresult : (rasterRead (fun k => (.output (value k) : IntensityData T)) tile).map
      IntensityData.result? = rasterRead (r.denoisedAt tile) tile :=
    map_rasterRead fun k hk => (hvalue k hk).symm
  rw [hresult] at hstore
  exact hbuilt.append (hload.append hstore)

omit [IsStrictOrderedRing T] in
theorem disciplined_computeTile (tile : Rectangle) : Disciplined [] (r.computeTile tile) := by
  simp [computeTile, TileContext.loadTile, TileContext.storeTile, Disciplined]

/-! ## The band -/

/-- **The noise is removed from the band.** The tiles partition it, and where the metadata has the
noise of each, in every order of the steps a pixel is written once, with its intensity without the
noise in the table of its tile; that is the noise of the product, wherever it does not depend on the
tile. Every run ends. -/
theorem setTargetImages_denoises (r : ThermalNoiseRemover T)
    (hproduct : r.raster.tileWidth * r.raster.tileHeight < 2147483648) :
    ∃ tiles, Util.ThermalNoiseRemover.calculateTiles r.raster.tileWidth r.raster.tileHeight
        ⟨r.sourceDsArea.1, r.sourceDsArea.2, r.raster.width, r.raster.height⟩ = .ok tiles ∧
      IsPartition r.raster.width r.raster.height tiles ∧
      ((∀ tile ∈ tiles, r.HasNoise tile) → ∀ initial,
        (∀ s, (r.setTargetImages tiles).Reachable s →
          WritesImage r.computeTile rasterWrite tiles (fun tile k => tile.Contains k.1 k.2)
            r.denoisedAt initial s) ∧
        (WellFounded fun t s => (r.setTargetImages tiles).step s t) ∧
        ∀ tile ∈ tiles, ∀ k : Int × Int, tile.Contains k.1 k.2 → ∃ dn2 noise,
          r.source.intensity (r.sourceBand k) = some dn2 ∧ r.noiseIn tile k = some noise ∧
          r.denoisedAt tile k = some (r.pixelValue dn2 noise) ∧
          (r.MeetsBlocks tile → r.productNoise k = some noise)) := by
  have hpartition : IsPartition r.raster.width r.raster.height
      (calculateTiles r.raster.tileWidth r.raster.tileHeight r.raster.width r.raster.height) :=
    isPartition_calculateTiles r.raster.columns.size_pos r.raster.rows.size_pos
  refine ⟨_, tilesByRows_eq r.raster.columns r.raster.rows, hpartition, fun hnoise initial => ?_⟩
  set tiles := calculateTiles r.raster.tileWidth r.raster.tileHeight r.raster.width
    r.raster.height with htiles
  have hcomputes : ComputesTiles r.computeTile
      (TileContext.Ready (r.raster.tileWidth.toNat * r.raster.tileHeight.toNat) r.devMemBytes)
      (fun tile => [(tile, rasterRead (r.denoisedAt tile) tile)]) tiles :=
    ⟨fun tile _ => disciplined_computeTile tile,
      fun tile htile => computeTile_triple hproduct htile (hnoise tile htile)⟩
  have hpaints := paintsTiles_rasterWrite id
    (fun tile => rasterRead (r.denoisedAt tile) tile) r.denoisedAt
    (fun tile (_ : tile ∈ tiles) k hk => congrArg Option.join (getElem?_rasterRead _ hk))
    fun tile htile tile' htile' k hk hk' => by
      rw [eq_of_contains hpartition.disjoint htile htile' hk hk']
  obtain ⟨hsafe, hends⟩ := workers_writeImage (ι := Fin (nThreads tiles))
    ⟨⟨0, by unfold nThreads; split <;> decide⟩⟩ hcomputes hpaints initial
  refine ⟨hsafe, hends, fun tile htile k hk => ?_⟩
  obtain ⟨noiseMatrix, hbuild, hcell⟩ :=
    (hnoise tile htile).exists_noise (hpartition.inside tile htile)
  obtain ⟨dn2, hdn2⟩ := r.exists_intensity k
  obtain ⟨noise, hcell, hmeets⟩ := hcell k hk
  have hin : r.noiseIn tile k = some noise := by simp [noiseIn, hbuild, hcell]
  exact ⟨dn2, noise, hdn2, hin, by simp [denoisedAt, hdn2, hin], hmeets⟩

theorem tiledRange_one : TiledRange 1 25 := ⟨by decide, by decide, by decide⟩

/-- One pixel of a burst product, at the sample 5 of the line 4. -/
def oneRemover : ThermalNoiseRemover ℚ where
  raster := ⟨1, 1, 25, 25, tiledRange_one, tiledRange_one⟩
  source := .complex (exampleSlcInfo 3)
    ⟨exampleOrder, exampleShares, exampleShares, exampleShares, exampleShares, exampleShares,
      exampleShares⟩ fun _ => (3, 4)
  sourceDsArea := (0, 0)
  subsetOffsetX := 5
  subsetOffsetY := 4
  offsetX_nonneg := Int.natCast_nonneg 5
  offsetY_nonneg := Int.natCast_nonneg 4
  targetNoDataValue := 0
  targetFloorValue := 1
  order := .inOrder

/-- The theorem for this pixel: the noise of its burst is taken from twenty-five. -/
theorem setTargetImages_denoises_one :
    ∃ tiles, Util.ThermalNoiseRemover.calculateTiles 25 25 ⟨0, 0, 1, 1⟩ = .ok tiles ∧
      IsPartition 1 1 tiles ∧
      ∀ tile ∈ tiles, tile.Contains 0 0 → ∃ noise, oneRemover.productNoise (0, 0) = some noise ∧
        oneRemover.denoisedAt tile (0, 0) = some (oneRemover.pixelValue 25 noise) := by
  obtain ⟨tiles, htiles, hpartition, hremoved⟩ := setTargetImages_denoises oneRemover (by decide)
  have hnoise : ∀ tile ∈ tiles, oneRemover.HasNoise tile := by
    intro tile htile hrefuses
    obtain ⟨-, hheight, -, -, hy, hbottom⟩ := hpartition.inside tile htile
    rcases hrefuses with hlines | ⟨line, hfirst, hlast, hnone⟩
    · exact absurd hlines (by decide)
    · obtain rfl : line = 4 := by
        simp only [metadataTile, oneRemover] at hfirst hlast hbottom
        omega
      exact absurd hnone (by decide)
  refine ⟨tiles, htiles, hpartition, fun tile htile hin => ?_⟩
  obtain ⟨-, -, hvalue⟩ := hremoved hnoise fun _ => none
  obtain ⟨dn2, noise, hdn2, -, hdenoised, hproduct⟩ := hvalue tile htile (0, 0) hin
  have hintensity : oneRemover.source.intensity (oneRemover.sourceBand (0, 0)) = some 25 := by
    decide +kernel
  obtain rfl := Option.some.inj (hintensity.symm.trans hdn2)
  exact ⟨noise, hproduct trivial, hdenoised⟩

end Noise

end ThermalNoiseRemover

end Alus.ThermalNoise
