import Alus.TerrainCorrection.SourceRectangleKernel
import Alus.Util.InPlaceTiles

/-!
# Terrain correction of an image

`TerrainCorrection::ExecuteTerrainCorrection` (`terrain_correction.cc`): up to three threads take
tiles of the target from the queue. A thread first has the source rectangle of its tile computed on
its stream and waits for it. Only if the rectangle is not empty does it read it, start the kernel
that samples it and write the tile; a tile without a source rectangle is left as the target was
created. The arrays of a tile are taken from the arena of the thread, which is reset after each
tile, the source rectangle is brought to a device buffer that only grows.
-/

namespace Alus.TerrainCorrection

open Alus.Lib Alus.Util Alus.Cuda
open Alus.Util.TileContext (takeArray takeArray_eq)

variable {T : Type} [Field T] [LinearOrder T] [FloorRing T]

/-- `PerThreadData`, with what the thread has in its arena. -/
structure PerThreadData (T : Type) where
  hSourceRectangleResult : SourceRectangleResult
  hResamplingTile : Rectangle
  hTargetTile : List (Option T)
  hSourceTile : List (Option T)
  /-- the paged memory for a rectangle that is too large for `h_source_tile` -/
  sourceBuffer : List (Option T)
  deviceMemoryArena : MemArena
  dSourceRectangleResult : Option SourceRectangleResult
  dAzimuthIndex : List (Option (Option T))
  dRangeIndex : List (Option T)
  dResamplingTile : Option Rectangle
  dSourceBuffer : DeviceBuffer T
  dTarget : List (Option T)

/-- `SharedThreadData`, and the order in which the device runs the threads of each kernel. -/
structure SharedThreadData (T : Type) where
  raster : TiledRaster
  band : SourceBand T
  cells : TargetCells T
  targetNoDataValue : T
  dbValues : Bool
  /-- `10 * log10` -/
  toDb : T → T
  order : AtomicOrder

/-- The end of `GetSourceRectangle`, on the host. -/
def sourceRectangle (band : SourceBand T) (result : SourceRectangleResult) : Rectangle :=
  if result.maxAzimuth = -2147483648 then ⟨0, 0, 0, 0⟩
  else
    let margin := bilinearInterpolationMargin
    let xMin := max 0 (result.minRange - margin)
    let xMax := min band.xSize (result.maxRange + 2 * margin + 1)
    let yMin := max 0 (result.minAzimuth - margin)
    let yMax := min band.ySize (result.maxAzimuth + 2 * margin + 1)
    ⟨xMin, yMin, xMax - xMin, yMax - yMin⟩

namespace SharedThreadData

variable (s : SharedThreadData T)

def maxTileSize : Nat := s.raster.tileWidth.toNat * s.raster.tileHeight.toNat

/-- `source_buffer_size`. -/
def sourceBufferSize : Nat := s.maxTileSize * 3

/-- The bytes that `InitThreadContext` reserves. -/
def gpuMemSz : Nat :=
  let bytes := s.maxTileSize * 8 + s.maxTileSize * 8 + s.maxTileSize * 4 + 16 + 40
  bytes + bytes / 20

/-! ## The source rectangle -/

/-- The arrays for the indices of the pixels. -/
def allocIndices (tile : Rectangle) : Action (PerThreadData T) := fun ctx => do
  let arena ← takeArray 8 (pixelCount tile) ctx.deviceMemoryArena
  let arena ← takeArray 8 (pixelCount tile) arena
  return { ctx with
    deviceMemoryArena := arena
    dAzimuthIndex := List.replicate (pixelCount tile) none
    dRangeIndex := List.replicate (pixelCount tile) none }

def initResult : Action (PerThreadData T) := fun ctx =>
  some { ctx with
    hSourceRectangleResult := ⟨2147483647, -2147483648, 2147483647, -2147483648⟩ }

def allocResult : Action (PerThreadData T) := fun ctx => do
  let arena ← takeArray 16 1 ctx.deviceMemoryArena
  return { ctx with deviceMemoryArena := arena, dSourceRectangleResult := none }

def copyResultToDevice : Action (PerThreadData T) := fun ctx =>
  some { ctx with dSourceRectangleResult := some ctx.hSourceRectangleResult }

def runSourceRectangleKernel (tile : Rectangle) : Action (PerThreadData T) := fun ctx => do
  let result ← ctx.dSourceRectangleResult
  let m ← launchGetSourceRectangle s.band s.cells s.order tile
    ⟨ctx.dAzimuthIndex, ctx.dRangeIndex, result⟩
  return { ctx with
    dAzimuthIndex := m.azimuthIndex
    dRangeIndex := m.rangeIndex
    dSourceRectangleResult := some m.result }

def copyResultToHost : Action (PerThreadData T) := fun ctx => do
  let result ← ctx.dSourceRectangleResult
  return { ctx with hSourceRectangleResult := result }

/-- `source_rectangle`. -/
def rectangleOf (ctx : PerThreadData T) : Rectangle :=
  sourceRectangle s.band ctx.hSourceRectangleResult

/-- `source_rect_sz`, once its product is defined. -/
def sourceRectSz (ctx : PerThreadData T) : Nat :=
  ((s.rectangleOf ctx).width * (s.rectangleOf ctx).height).toNat

def checkSourceRectSz : Action (PerThreadData T) := fun ctx =>
  if Fits 32 ((s.rectangleOf ctx).width * (s.rectangleOf ctx).height) then some ctx else none

/-- A valid source rectangle has been found. -/
def found (ctx : PerThreadData T) : Bool := 0 < s.sourceRectSz ctx

/-! ## The target tile -/

/-- The device buffer grows if it has to, and a rectangle that is too large for the thread's buffer
gets memory of its own. -/
def prepareSource : Action (PerThreadData T) := fun ctx =>
  let size := s.sourceRectSz ctx
  some { ctx with
    hResamplingTile := s.rectangleOf ctx
    sourceBuffer := if size > s.sourceBufferSize then List.replicate size none else []
    dSourceBuffer :=
      if size > ctx.dSourceBuffer.elemCount then ctx.dSourceBuffer.resize size
      else ctx.dSourceBuffer }

def allocResamplingTile : Action (PerThreadData T) := fun ctx => do
  let arena ← takeArray 40 1 ctx.deviceMemoryArena
  return { ctx with deviceMemoryArena := arena, dResamplingTile := none }

def copyResamplingTile : Action (PerThreadData T) := fun ctx =>
  some { ctx with dResamplingTile := some ctx.hResamplingTile }

/-- `RasterIO` with `GF_Read`. -/
def readSource : Action (PerThreadData T) := fun ctx => do
  let data := rasterRead (fun k => s.band.pixel k.1 k.2) (s.rectangleOf ctx)
  if s.sourceRectSz ctx > s.sourceBufferSize then
    let buffer ← memcpy (s.sourceRectSz ctx) (data.map some) ctx.sourceBuffer
    return { ctx with sourceBuffer := buffer }
  else
    let buffer ← memcpy (s.sourceRectSz ctx) (data.map some) ctx.hSourceTile
    return { ctx with hSourceTile := buffer }

def copySource : Action (PerThreadData T) := fun ctx => do
  let hSourceBuffer :=
    if s.sourceRectSz ctx > s.sourceBufferSize then ctx.sourceBuffer else ctx.hSourceTile
  let buffer ← ctx.dSourceBuffer.store (s.sourceRectSz ctx) hSourceBuffer
  return { ctx with dSourceBuffer := buffer }

def allocTarget (tile : Rectangle) : Action (PerThreadData T) := fun ctx => do
  let arena ← takeArray 4 (pixelCount tile) ctx.deviceMemoryArena
  return { ctx with
    deviceMemoryArena := arena
    dTarget := List.replicate (pixelCount tile) none }

/-- `main_kernel_grid_size`. -/
def mainKernelGridSize (tile : Rectangle) : Dim3 :=
  ⟨(tile.width / 16 + 1).toNat, (tile.height / 16 + 1).toNat⟩

/-- A kernel over the pixels of a tile, each of which has its cell of the target. -/
def launchTarget (tile : Rectangle) (f : Int × Int → Option T → Option (Option T))
    (target : List (Option T)) : Option (List (Option T)) :=
  if (mainKernelGridSize tile).Valid then
    launchInPlace (pixelIndex tile) f
      ((s.order.order (threadSteps (mainKernelGridSize tile) blockSize 1)).filterMap
        (threadPixel blockSize tile)) target
  else none

/-- A thread of `TerrainCorrectionKernel`. The samples that it may use are those of the rectangle:
what lies after them in the buffer is of another tile. -/
def kernelValue (ctx : PerThreadData T) (tile : Rectangle) (k : Int × Int) : Option T := do
  let sourceTile ← ctx.dResamplingTile
  let data ← (ctx.dSourceBuffer.cells.take (sourceTile.width * sourceTile.height).toNat).mapM id
  match ← ctx.dAzimuthIndex[pixelIndex tile k]?.join with
  | none => return s.targetNoDataValue
  | some azimuthIndex =>
    let rangeIndex ← ctx.dRangeIndex[pixelIndex tile k]?.join
    -- the height is taken from the width as well
    toOption (getPixelValue ⟨s.band.xSize, s.band.xSize⟩ sourceTile data rangeIndex azimuthIndex)

def runTerrainCorrectionKernel (tile : Rectangle) : Action (PerThreadData T) := fun ctx => do
  let target ← s.launchTarget tile (fun k _ => (s.kernelValue ctx tile k).map some) ctx.dTarget
  return { ctx with dTarget := target }

/-- `CalcDb` on one value. -/
def calcDb (value : T) : T :=
  if value = 0 then value
  else if value = s.targetNoDataValue then value
  else s.toDb value

def runCalcDb (tile : Rectangle) : Action (PerThreadData T) := fun ctx => do
  let target ← s.launchTarget tile (fun _ cell => cell.map fun value => some (s.calcDb value))
    ctx.dTarget
  return { ctx with dTarget := target }

def copyTarget : Action (PerThreadData T) := fun ctx => do
  let buffer ← memcpy ctx.dTarget.length ctx.dTarget ctx.hTargetTile
  return { ctx with hTargetTile := buffer }

def tileData (tile : Rectangle) (ctx : PerThreadData T) : TileData T :=
  (tile, ctx.hTargetTile.take (pixelCount tile))

def resetArena : Action (PerThreadData T) := fun ctx =>
  some { ctx with deviceMemoryArena := ctx.deviceMemoryArena.reset }

/-! ## The threads -/

/-- `GetSourceRectangle`, with the allocations before it. -/
def locateTile (tile : Rectangle) :
    List (HostInstr (PerThreadData T) (Option (TileData T))) :=
  [.host (allocIndices tile), .host initResult, .host allocResult, .enqueue copyResultToDevice,
    .enqueue (s.runSourceRectangleKernel tile), .enqueue copyResultToHost, .synchronize,
    .host s.checkSourceRectSz]

/-- What is done where there is a source rectangle. -/
def sampleTile (tile : Rectangle) :
    List (HostInstr (PerThreadData T) (Option (TileData T))) :=
  [.host s.prepareSource, .host allocResamplingTile, .enqueue copyResamplingTile,
    .host s.readSource, .enqueue s.copySource, .host (allocTarget tile),
    .enqueue (s.runTerrainCorrectionKernel tile)] ++
  (if s.dbValues then [.enqueue (s.runCalcDb tile)] else []) ++
  [.enqueue copyTarget, .synchronize, .write fun ctx => some (tileData tile ctx)]

/-- `CalculateTile`. -/
def calculateTile (tile : TcTileCoordinates) :
    List (HostInstr (PerThreadData T) (Option (TileData T))) :=
  s.locateTile tile.target ++ branch s.found none (s.sampleTile tile.target) ++ [.host resetArena]

/-- Before a tile: buffers for the largest one and an empty arena. -/
structure Ready (ctx : PerThreadData T) : Prop where
  target : ctx.hTargetTile.length = s.maxTileSize
  source : ctx.hSourceTile.length = s.sourceBufferSize
  unused : ctx.deviceMemoryArena.usedByteSize = 0
  reserved : ctx.deviceMemoryArena.maxByteSize.toNat = s.gpuMemSz

/-- `n_threads`. -/
def nThreads (tiles : List TcTileCoordinates) : Nat := if 0 < tiles.length / 3 then 3 else 1

/-- The threads that `ExecuteTerrainCorrection` starts. -/
def executeTerrainCorrection (tiles : List TcTileCoordinates) :
    System (WorkersState TcTileCoordinates (Fin (nThreads tiles)) (PerThreadData T)
      (Option (TileData T))) :=
  workers (Fin (nThreads tiles)) s.calculateTile s.Ready tiles

/-- What is written of a tile, if it is written. -/
def writeTile (image : RasterBand (Option T)) : Option (TileData T) → RasterBand (Option T)
  | none => image
  | some data => rasterWrite image data

/-! ## What terrain correction is for -/

/-- The source at a position. Rows from the width of the image on are taken from the last one before
it, since the kernel gets the width for the height. -/
def sampleAt (p : T × T) : T :=
  bilinear s.band.pixel p.1 (min p.2 ((s.band.xSize - 1 : Int) : T))

/-- The source at the position of a pixel, if it has one that is accepted. -/
def resampledAt (k : Int × Int) : T :=
  match acceptedCell s.band s.cells k.1 k.2 with
  | none => s.targetNoDataValue
  | some p => s.sampleAt p

/-- The value of a pixel of the target. -/
def valueAt (k : Int × Int) : T :=
  if s.dbValues then s.calcDb (s.resampledAt k) else s.resampledAt k

/-- The tile has a pixel in the source image. -/
def IsFound (tile : Rectangle) : Prop := acceptedCells s.band s.cells tile ≠ []

/-- The pixels of the source rectangle can be counted, and not all of its positions lie past the
width of the image. -/
def CanSample (tile : Rectangle) : Prop :=
  s.IsFound tile →
    Fits 32 ((getSourceRectangle s.band s.cells tile).width *
      (getSourceRectangle s.band s.cells tile).height) ∧
    ∃ p ∈ acceptedCells s.band s.cells tile, ⌊p.2⌋ ≤ s.band.xSize

/-- What is written of a tile: nothing, if it is not in the source image. -/
def tileResult (tile : TcTileCoordinates) : Option (TileData T) :=
  if (acceptedCells s.band s.cells tile.target).isEmpty then none
  else some (tile.target, (rasterRead s.valueAt tile.target).map some)

/-- The memory that a thread reserves holds the arrays of the largest tile, each of which begins at
a multiple of 128. -/
def Reserves : Prop :=
  2 * alignUp 128 (8 * s.maxTileSize) + 256 + 4 * s.maxTileSize ≤ s.gpuMemSz

/-! ## The source rectangle of a tile -/

section Locate

variable {s} {tile : Rectangle}

theorem alignUp_mono {m n : Nat} (h : m ≤ n) : alignUp 128 m ≤ alignUp 128 n := by
  unfold alignUp
  split_ifs <;> omega

theorem alignUp_add {a : Nat} (h : 128 ∣ a) (n : Nat) :
    alignUp 128 (n + a) = a + alignUp 128 n := by
  unfold alignUp
  split_ifs <;> omega

omit [Field T] [LinearOrder T] [FloorRing T] in
/-- The twentieth that is added for the paddings is enough for tiles of 438 pixels on. -/
theorem reserves_of_le (h : 438 ≤ s.maxTileSize) : s.Reserves := by
  unfold Reserves alignUp gpuMemSz
  dsimp only
  split_ifs <;> omega

/-- What a thread has for the tiles. -/
structure HasBuffers (s : SharedThreadData T) (ctx : PerThreadData T) : Prop where
  target : ctx.hTargetTile.length = s.maxTileSize
  source : ctx.hSourceTile.length = s.sourceBufferSize
  reserved : ctx.deviceMemoryArena.maxByteSize.toNat = s.gpuMemSz

/-- The pixels of the tile have been indexed, and the host has their box. -/
structure Located (s : SharedThreadData T) (tile : Rectangle) (ctx : PerThreadData T) : Prop where
  buffers : s.HasBuffers ctx
  used : ctx.deviceMemoryArena.usedByteSize.toNat = 2 * alignUp 128 (8 * pixelCount tile) + 128
  indexed : Indexed s.band s.cells tile
    ⟨ctx.dAzimuthIndex, ctx.dRangeIndex, ctx.hSourceRectangleResult⟩

/-- A tile of the target, which no thread has too little memory for. -/
structure FitsThread (s : SharedThreadData T) (tile : Rectangle) : Prop where
  count : pixelCount tile < 2 ^ 31
  size : pixelCount tile ≤ s.maxTileSize
  arena : 2 * alignUp 128 (8 * pixelCount tile) + 256 + 4 * pixelCount tile ≤ s.gpuMemSz
  limit : s.gpuMemSz + 128 ≤ 2 ^ 64
  grid : (gridDim tile).Valid
  mainGrid : (mainKernelGridSize tile).Valid

theorem Located.rectangleOf_eq {ctx : PerThreadData T} (h : s.Located tile ctx) :
    s.rectangleOf ctx = getSourceRectangle s.band s.cells tile := by
  have hresult := h.indexed.result
  dsimp only at hresult
  rw [rectangleOf, hresult]
  rfl

theorem locateTile_triple (hfits : s.FitsThread tile)
    (harea : Fits 32 ((getSourceRectangle s.band s.cells tile).width *
      (getSourceRectangle s.band s.cells tile).height)) :
    HostTriple s.Ready (s.locateTile tile) [] (s.Located tile) := by
  intro ctx hready
  have hmax := hready.reserved
  have hzero : ctx.deviceMemoryArena.usedByteSize.toNat = 0 := by
    rw [hready.unused]
    rfl
  obtain ⟨hcount, -, harena, hlimit, hgrid, -⟩ := hfits
  have hle := le_alignUp 128 (8 * pixelCount tile)
  have hdvd : 128 ∣ alignUp 128 (8 * pixelCount tile) := dvd_alignUp (by decide) _
  -- the arrays for the azimuth, for the range and for the result
  obtain ⟨used, htaken, hused⟩ := takeArray_eq ctx.deviceMemoryArena 8 (pixelCount tile)
    (by omega) hcount (by omega) (by omega)
  rw [hzero, Nat.add_zero] at hused
  obtain ⟨used', htaken', hused'⟩ := takeArray_eq
    { ctx.deviceMemoryArena with usedByteSize := used } 8 (pixelCount tile) (by omega) hcount (by dsimp only; omega) (by dsimp only; omega)
  dsimp only at hused'
  rw [hused, alignUp_add hdvd] at hused'
  obtain ⟨used'', htaken'', hused''⟩ := takeArray_eq
    { ctx.deviceMemoryArena with usedByteSize := used' } 16 1 (by omega) (by omega)
    (by dsimp only; omega) (by dsimp only; omega)
  dsimp only at hused''
  rw [hused', alignUp_add (Nat.dvd_add hdvd hdvd)] at hused''
  obtain ⟨m, hlaunch, hindexed⟩ := exists_launchGetSourceRectangle s.band s.cells s.order
    hgrid (m := ⟨List.replicate (pixelCount tile) none,
      List.replicate (pixelCount tile) none, ⟨2147483647, -2147483648, 2147483647, -2147483648⟩⟩)
    List.length_replicate List.length_replicate rfl
  have hresult := hindexed.result
  have hcheck : Fits 32 ((sourceRectangle s.band m.result).width *
      (sourceRectangle s.band m.result).height) := by
    rw [hresult]
    exact harea
  refine ⟨{ ctx with
    hSourceRectangleResult := m.result
    deviceMemoryArena := { ctx.deviceMemoryArena with usedByteSize := used'' }
    dSourceRectangleResult := some m.result
    dAzimuthIndex := m.azimuthIndex
    dRangeIndex := m.rangeIndex },
    ⟨⟨hready.target, hready.source, hready.reserved⟩, ?_, hindexed⟩, ?_⟩
  · dsimp only
    rw [hused'', show alignUp 128 (16 * 1) = 128 from rfl, Nat.two_mul]
  · simp only [locateTile, runSequential, allocIndices, initResult, allocResult,
      copyResultToDevice, runSourceRectangleKernel, copyResultToHost, checkSourceRectSz,
      rectangleOf, htaken, htaken', htaken'', hlaunch, Option.bind_eq_bind, Option.bind_some,
      Option.pure_def]
    exact congrArg (Option.bind · _) (if_pos hcheck)

end Locate

/-! ## Sampling a tile -/

section Sample

variable {s} {tile : Rectangle}

/-- The rectangle is on the device, and there are cells for the target. -/
structure Loaded (s : SharedThreadData T) (tile : Rectangle) (ctx : PerThreadData T) : Prop where
  buffers : s.HasBuffers ctx
  indexed : Indexed s.band s.cells tile
    ⟨ctx.dAzimuthIndex, ctx.dRangeIndex, ctx.hSourceRectangleResult⟩
  sourceTile : ctx.dResamplingTile = some (getSourceRectangle s.band s.cells tile)
  samples : ctx.dSourceBuffer.cells.take (pixelCount (getSourceRectangle s.band s.cells tile)) =
    (rasterRead (fun k => s.band.pixel k.1 k.2) (getSourceRectangle s.band s.cells tile)).map some
  target : ctx.dTarget.length = pixelCount tile

/-- These are the values of the tile on the device. -/
structure Computed (s : SharedThreadData T) (tile : Rectangle) (value : RasterBand T)
    (ctx : PerThreadData T) : Prop where
  buffers : s.HasBuffers ctx
  target : ctx.dTarget = (rasterRead value tile).map some

/-- The rectangle of a tile that is found has pixels. -/
theorem rectangle_pos (hfound : s.IsFound tile) :
    0 < (getSourceRectangle s.band s.cells tile).width ∧
      0 < (getSourceRectangle s.band s.cells tile).height := by
  obtain ⟨p, hp⟩ := List.exists_mem_of_ne_nil _ hfound
  have hholds := holdsCells_getSourceRectangle hfound
  have hcolumns := hholds.columns p hp
  have hrows := hholds.rows p hp
  omega

theorem toNat_area (hfound : s.IsFound tile) :
    ((getSourceRectangle s.band s.cells tile).width *
      (getSourceRectangle s.band s.cells tile).height).toNat =
    pixelCount (getSourceRectangle s.band s.cells tile) := by
  obtain ⟨hwidth, hheight⟩ := rectangle_pos hfound
  exact Int.toNat_mul hwidth.le hheight.le

theorem loadSource_triple (hfits : s.FitsThread tile) (hfound : s.IsFound tile) :
    HostTriple (s.Located tile)
      ([.host s.prepareSource, .host allocResamplingTile, .enqueue copyResamplingTile,
        .host s.readSource, .enqueue s.copySource, .host (allocTarget tile)] :
        List (HostInstr (PerThreadData T) (Option (TileData T)))) [] (s.Loaded tile) := by
  intro ctx hlocated
  have hmax := hlocated.buffers.reserved
  have husedByteSize := hlocated.used
  obtain ⟨hcount, -, harena, hlimit, -, -⟩ := hfits
  have hdvd : 128 ∣ alignUp 128 (8 * pixelCount tile) := dvd_alignUp (by decide) _
  set r := getSourceRectangle s.band s.cells tile with hr
  have hrectangle : sourceRectangle s.band ctx.hSourceRectangleResult = r :=
    hlocated.rectangleOf_eq
  have hsize : (r.width * r.height).toNat = pixelCount r := toNat_area hfound
  set data := rasterRead (fun k => s.band.pixel k.1 k.2) r with hdata
  have hlength : data.length = pixelCount r := length_rasterRead _ r
  -- the arena has room for the description of the rectangle and for the target
  obtain ⟨used, htaken, hused⟩ := takeArray_eq ctx.deviceMemoryArena 40 1
    (by omega) (by omega) (by omega) (by omega)
  rw [husedByteSize, show 40 * 1 + (2 * alignUp 128 (8 * pixelCount tile) + 128) =
    40 + (2 * alignUp 128 (8 * pixelCount tile) + 128) from rfl,
    alignUp_add (by omega), show alignUp 128 40 = 128 from rfl] at hused
  obtain ⟨used', htaken', -⟩ := takeArray_eq { ctx.deviceMemoryArena with usedByteSize := used }
    4 (pixelCount tile) (by omega) hcount (by dsimp only; omega) (by dsimp only; omega)
  -- the device buffer has room for the rectangle
  obtain ⟨dBuffer, hdBuffer⟩ : ∃ dBuffer, dBuffer =
      if pixelCount r > ctx.dSourceBuffer.elemCount then ctx.dSourceBuffer.resize (pixelCount r)
      else ctx.dSourceBuffer := ⟨_, rfl⟩
  have hroom : data.length ≤ dBuffer.cells.length := by
    rw [hlength, hdBuffer]
    split_ifs with hgrows
    · exact ctx.dSourceBuffer.le_length_resize (pixelCount r)
    · exact le_trans (Nat.le_of_not_lt hgrows) ctx.dSourceBuffer.elemCount_le
  have hread (buffer : List (Option T)) (hbuffer : pixelCount r ≤ buffer.length) :
      ∃ copied stored, memcpy (pixelCount r) (data.map some) buffer = some copied ∧
        copied.length = buffer.length ∧ dBuffer.store (pixelCount r) copied = some stored ∧
        stored.cells.take (pixelCount r) = data.map some := by
    obtain ⟨copied, hcopied, hcopiedLength, htake⟩ := memcpy_of_le (data.map some) buffer
      (by rw [List.length_map, hlength]) hbuffer
    have hall := htake.trans (List.take_of_length_le (by rw [List.length_map, hlength]))
    obtain ⟨stored, hstored, -, hcells⟩ := dBuffer.store_take data copied hroom
      (by rw [hlength]; exact hall)
    rw [hlength] at hstored hcells
    exact ⟨copied, stored, hcopied, hcopiedLength, hstored, hcells⟩
  by_cases hlarge : pixelCount r > s.sourceBufferSize
  · obtain ⟨copied, stored, hcopied, -, hstored, hcells⟩ :=
      hread (List.replicate (pixelCount r) none) (by simp)
    refine ⟨{ ctx with
      hResamplingTile := r
      sourceBuffer := copied
      deviceMemoryArena := { ctx.deviceMemoryArena with usedByteSize := used' }
      dResamplingTile := some r
      dSourceBuffer := stored
      dTarget := List.replicate (pixelCount tile) none },
      ⟨⟨hlocated.buffers.target, hlocated.buffers.source, hmax⟩, hlocated.indexed, rfl, hcells,
        List.length_replicate⟩, ?_⟩
    simp only [runSequential, prepareSource, allocResamplingTile, copyResamplingTile, readSource,
      copySource, allocTarget, sourceRectSz, rectangleOf, hrectangle, hsize, htaken, htaken',
      Option.bind_eq_bind, Option.bind_some, Option.pure_def, if_pos hlarge, ← hdBuffer, ← hdata,
      hcopied, hstored]
  · obtain ⟨copied, stored, hcopied, hcopiedLength, hstored, hcells⟩ :=
      hread ctx.hSourceTile (by rw [hlocated.buffers.source]; omega)
    refine ⟨{ ctx with
      hResamplingTile := r
      hSourceTile := copied
      sourceBuffer := []
      deviceMemoryArena := { ctx.deviceMemoryArena with usedByteSize := used' }
      dResamplingTile := some r
      dSourceBuffer := stored
      dTarget := List.replicate (pixelCount tile) none },
      ⟨⟨hlocated.buffers.target, hcopiedLength.trans hlocated.buffers.source, hmax⟩,
        hlocated.indexed, rfl, hcells, List.length_replicate⟩, ?_⟩
    simp only [runSequential, prepareSource, allocResamplingTile, copyResamplingTile, readSource,
      copySource, allocTarget, sourceRectSz, rectangleOf, hrectangle, hsize, htaken, htaken',
      Option.bind_eq_bind, Option.bind_some, Option.pure_def, if_neg hlarge, ← hdBuffer, ← hdata,
      hcopied, hstored]

omit [Field T] [LinearOrder T] [FloorRing T] in
/-- Each thread of a launch has the cell of its pixel, whatever the order. -/
theorem launchTarget_eq (hgrid : (mainKernelGridSize tile).Valid)
    {f : Int × Int → Option T → Option (Option T)} {value : RasterBand T} {target : List (Option T)}
    (hlength : target.length = pixelCount tile)
    (h : ∀ k : Int × Int, tile.Contains k.1 k.2 → ∃ cell, target[pixelIndex tile k]? = some cell ∧
      f k cell = some (some (value k))) :
    s.launchTarget tile f target = some ((rasterRead value tile).map some) := by
  have hcovers : GridCovers (mainKernelGridSize tile) blockSize tile :=
    ⟨by simp only [mainKernelGridSize, blockSize]; omega,
      by simp only [mainKernelGridSize, blockSize]; omega⟩
  have hperm := perm_threadPixels hcovers (s.order.perm _)
  have hmem {k : Int × Int} := hperm.mem_iff.trans (mem_tilePixels (t := tile) (p := k))
  have hnodup := List.Nodup.map_on (fun k hk k' hk' heq =>
      pixelIndex_inj (hmem.mp hk) (hmem.mp hk') heq)
    (hperm.nodup_iff.mpr ((nodup_intRange _ _).product (nodup_intRange _ _)))
  obtain ⟨target', hlaunch, hlength', hvalue, -⟩ :=
    launchInPlace_eq (fun k => some (value k)) hnodup fun k hk => h k (hmem.mp hk)
  rw [launchTarget, if_pos hgrid, hlaunch, rasterRead_map]
  exact congrArg some (eq_rasterRead (hlength'.trans hlength) fun k hk => hvalue k (hmem.mpr hk))

omit [Field T] [LinearOrder T] [FloorRing T] in
theorem rasterRead_eq_sourceBuffer {band : SourceBand T} {r : Rectangle} (hwidth : 0 ≤ r.width)
    (hheight : 0 ≤ r.height) :
    rasterRead (fun k => band.pixel k.1 k.2) r = sourceBuffer band r := by
  refine (eq_rasterRead ?_ fun k hk => ?_).symm
  · have hlength := length_rowMajor hwidth hheight fun x y => band.pixel (r.x + x) (r.y + y)
    rw [sourceBuffer, pixelCount, ← Int.toNat_mul hwidth hheight]
    omega
  · obtain ⟨hx, hx', hy, hy'⟩ := hk
    have hvalue := vectorIndex_rowMajor (show 0 ≤ k.1 - r.x by omega) (show _ < r.width by omega)
      (show 0 ≤ k.2 - r.y by omega) (show _ < r.height by omega)
      fun x y => band.pixel (r.x + x) (r.y + y)
    rw [add_sub_cancel, add_sub_cancel] at hvalue
    rw [sourceBuffer, pixelIndex, Int.add_comm, Int.mul_comm]
    exact (vectorIndex_eq_ok.mp hvalue).2

variable [IsStrictOrderedRing T]

/-- A position past the width of the image gets its row from the last one before it. -/
theorem getPixelValue_eq (hfound : s.IsFound tile) (hsamples : s.CanSample tile) {p : T × T}
    (hp : p ∈ acceptedCells s.band s.cells tile) :
    getPixelValue ⟨s.band.xSize, s.band.xSize⟩ (getSourceRectangle s.band s.cells tile)
      (sourceBuffer s.band (getSourceRectangle s.band s.cells tile)) p.1 p.2 =
      .ok (s.sampleAt p) := by
  obtain ⟨harea, q, hq, hrow⟩ := hsamples hfound
  have hholds := holdsCells_getSourceRectangle hfound
  have haccepted := accepted_of_mem hp
  rcases Int.lt_or_le (⌊p.2⌋ + 1) s.band.xSize with hlt | hge
  · have hle : p.2 ≤ ((s.band.xSize - 1 : Int) : T) := (Int.floor_lt.mp (by omega)).le
    rw [sampleAt, min_eq_left hle]
    exact getPixelValue_of_lt hholds hp haccepted harea hlt
  · have hge' : ((s.band.xSize - 1 : Int) : T) ≤ p.2 := Int.le_floor.mp (by omega)
    have hsize : 1 ≤ s.band.xSize := by
      have hlast := haccepted.range_lt
      have hfirst := Int.floor_nonneg.mpr haccepted.range_nonneg
      omega
    rw [sampleAt, min_eq_right hge']
    exact (getPixelValue_of_ge hholds hp haccepted harea hge).trans
      (if_pos ((hholds.y_le_iff _ hsize).mpr ⟨q, hq, hrow⟩))

theorem kernelValue_eq (hfound : s.IsFound tile) (hsamples : s.CanSample tile)
    {ctx : PerThreadData T} (hloaded : s.Loaded tile ctx) {k : Int × Int}
    (hk : tile.Contains k.1 k.2) : s.kernelValue ctx tile k = some (s.resampledAt k) := by
  have hazimuth : ctx.dAzimuthIndex[pixelIndex tile k]? =
      some (some ((acceptedCell s.band s.cells k.1 k.2).map Prod.snd)) := by
    have hindexed := hloaded.indexed.azimuth
    dsimp only at hindexed
    rw [hindexed, List.getElem?_map, getElem?_rasterRead _ hk]
    rfl
  simp only [kernelValue, hloaded.sourceTile, toNat_area hfound, hloaded.samples,
    DeviceBuffer.mapM_map_some, hazimuth, Option.bind_eq_bind, Option.bind_some, Option.join_some,
    resampledAt]
  cases hcell : acceptedCell s.band s.cells k.1 k.2 with
  | none => rfl
  | some p =>
    have hrange := hloaded.indexed.range k hk p hcell
    dsimp only at hrange
    have hvalue := getPixelValue_eq hfound hsamples
      (mem_acceptedCells.mpr ⟨k.1, k.2, hk, hcell⟩)
    obtain ⟨hwidth, hheight⟩ := rectangle_pos hfound
    simp only [Option.map_some, hrange, Option.join_some, Option.bind_some,
      rasterRead_eq_sourceBuffer hwidth.le hheight.le, hvalue, toOption_ok]

theorem runKernel_triple (hgrid : (mainKernelGridSize tile).Valid) (hfound : s.IsFound tile)
    (hsamples : s.CanSample tile) :
    HostTriple (s.Loaded tile)
      [(.enqueue (s.runTerrainCorrectionKernel tile) : HostInstr _ (Option (TileData T)))] []
      (s.Computed tile s.resampledAt) := by
  refine .enqueue fun ctx hloaded => ?_
  have hlaunch : s.launchTarget tile (fun k _ => (s.kernelValue ctx tile k).map some) ctx.dTarget =
      some ((rasterRead s.resampledAt tile).map some) := by
    refine launchTarget_eq hgrid hloaded.target fun k hk => ?_
    have hindex : pixelIndex tile k < ctx.dTarget.length := hloaded.target ▸ pixelIndex_lt hk
    exact ⟨_, List.getElem?_eq_getElem hindex,
      by rw [kernelValue_eq hfound hsamples hloaded hk, Option.map_some]⟩
  exact ⟨{ ctx with dTarget := (rasterRead s.resampledAt tile).map some },
    by simp only [runTerrainCorrectionKernel, hlaunch, Option.bind_eq_bind, Option.bind_some,
      Option.pure_def],
    ⟨⟨hloaded.buffers.target, hloaded.buffers.source, hloaded.buffers.reserved⟩, rfl⟩⟩

omit [IsStrictOrderedRing T] in
theorem runCalcDb_triple (hgrid : (mainKernelGridSize tile).Valid) :
    HostTriple (s.Computed tile s.resampledAt)
      (if s.dbValues then
        [(.enqueue (s.runCalcDb tile) : HostInstr _ (Option (TileData T)))] else []) []
      (s.Computed tile s.valueAt) := by
  intro ctx hcomputed
  cases hdb : s.dbValues with
  | false =>
    have hsame : s.valueAt = s.resampledAt := by
      funext k
      simp [valueAt, hdb]
    exact ⟨ctx, ⟨hcomputed.buffers, hsame ▸ hcomputed.target⟩, rfl⟩
  | true =>
    have hlaunch : s.launchTarget tile
        (fun _ cell => cell.map fun value => some (s.calcDb value)) ctx.dTarget =
        some ((rasterRead s.valueAt tile).map some) := by
      refine launchTarget_eq hgrid (by simp [hcomputed.target]) fun k hk => ?_
      refine ⟨some (s.resampledAt k), ?_, by simp [valueAt, hdb]⟩
      rw [hcomputed.target, List.getElem?_map, getElem?_rasterRead _ hk, Option.map_some]
    refine ⟨{ ctx with dTarget := (rasterRead s.valueAt tile).map some },
      ⟨⟨hcomputed.buffers.target, hcomputed.buffers.source, hcomputed.buffers.reserved⟩, rfl⟩, ?_⟩
    simp only [if_true, runSequential, runCalcDb, hlaunch, Option.bind_eq_bind, Option.bind_some,
      Option.pure_def]

omit [IsStrictOrderedRing T] in
theorem storeTarget_triple (hfits : s.FitsThread tile) :
    HostTriple (s.Computed tile s.valueAt)
      [.enqueue copyTarget, .synchronize, .write fun ctx => some (tileData tile ctx)]
      [some (tile, (rasterRead s.valueAt tile).map some)] s.HasBuffers := by
  intro ctx hcomputed
  have hlength : ctx.dTarget.length = pixelCount tile := by simp [hcomputed.target]
  obtain ⟨copied, hcopied, hcopiedLength, htake⟩ := memcpy_of_le (n := ctx.dTarget.length)
    ctx.dTarget ctx.hTargetTile le_rfl
    (by rw [hlength, hcomputed.buffers.target]; exact hfits.size)
  rw [hcomputed.target, List.take_of_length_le le_rfl, ← hcomputed.target, hlength,
    hcomputed.target] at htake
  refine ⟨{ ctx with hTargetTile := copied }, ⟨hcopiedLength.trans hcomputed.buffers.target,
    hcomputed.buffers.source, hcomputed.buffers.reserved⟩, ?_⟩
  simp only [runSequential, copyTarget, tileData, hcopied, htake, Option.bind_eq_bind,
    Option.bind_some, Option.pure_def, Option.map_some]

theorem sampleTile_triple (hfits : s.FitsThread tile) (hfound : s.IsFound tile)
    (hsamples : s.CanSample tile) :
    HostTriple (s.Located tile) (s.sampleTile tile)
      [some (tile, (rasterRead s.valueAt tile).map some)] s.HasBuffers := by
  have hload := (loadSource_triple hfits hfound).append
    (runKernel_triple hfits.mainGrid hfound hsamples)
  exact (hload.append (runCalcDb_triple hfits.mainGrid)).append (storeTarget_triple hfits)

end Sample

/-! ## A tile -/

section Tile

variable {s} {tile : TcTileCoordinates}

omit [Field T] [LinearOrder T] [FloorRing T] in
/-- What follows an allocation, a copy or a launch leaves the box as it is. -/
theorem keeps_of_bind {α : Type} {o : Option α} {g : α → PerThreadData T}
    {ctx ctx' : PerThreadData T}
    (h : (o.bind fun a => some (g a)) = some ctx')
    (hg : ∀ a, (g a).hSourceRectangleResult = ctx.hSourceRectangleResult) :
    ctx'.hSourceRectangleResult = ctx.hSourceRectangleResult := by
  obtain ⟨a, -, ha⟩ := Option.bind_eq_some_iff.mp h
  obtain rfl := Option.some.inj ha
  exact hg a

theorem keepsCond_sampleTile (tile : Rectangle) :
    ∀ instr ∈ s.sampleTile tile, instr.KeepsCond s.found := by
  have hkeeps {act : Action (PerThreadData T)} (h : ∀ ctx ctx', act ctx = some ctx' →
      ctx'.hSourceRectangleResult = ctx.hSourceRectangleResult) : KeepsCond s.found act := by
    intro ctx ctx' hact
    rw [found, found, sourceRectSz, sourceRectSz, rectangleOf, rectangleOf, h ctx ctx' hact]
  have hreadSource : KeepsCond s.found s.readSource := by
    refine hkeeps fun ctx ctx' h => ?_
    unfold readSource at h
    dsimp only at h
    split at h <;> exact keeps_of_bind h fun _ => rfl
  intro instr hinstr
  simp only [sampleTile, List.cons_append, List.nil_append, List.mem_append, List.mem_cons,
    List.not_mem_nil, or_false] at hinstr
  rcases hinstr with rfl | rfl | rfl | rfl | rfl | rfl | rfl | hdb | rfl | rfl | rfl
  · exact hkeeps fun ctx ctx' h => by cases h; rfl
  · exact hkeeps fun ctx ctx' h => keeps_of_bind h fun _ => rfl
  · exact hkeeps fun ctx ctx' h => by cases h; rfl
  · exact hreadSource
  · exact hkeeps fun ctx ctx' h => keeps_of_bind h fun _ => rfl
  · exact hkeeps fun ctx ctx' h => keeps_of_bind h fun _ => rfl
  · exact hkeeps fun ctx ctx' h => keeps_of_bind h fun _ => rfl
  · split at hdb
    · rw [List.mem_singleton.mp hdb]
      exact hkeeps fun ctx ctx' h => keeps_of_bind h fun _ => rfl
    · exact absurd hdb List.not_mem_nil
  · exact hkeeps fun ctx ctx' h => keeps_of_bind h fun _ => rfl
  · trivial
  · trivial

theorem getSourceRectangle_eq {tile : Rectangle} (h : ¬ s.IsFound tile) :
    getSourceRectangle s.band s.cells tile = ⟨0, 0, 0, 0⟩ := by
  have hnone : acceptedCells s.band s.cells tile = [] := not_not.mp h
  rw [getSourceRectangle, hnone]
  exact if_pos rfl

/-- The host finds a rectangle exactly for a tile that has a pixel in the source image. -/
theorem Located.found_iff {tile : Rectangle} {ctx : PerThreadData T} (h : s.Located tile ctx) :
    s.found ctx = true ↔ s.IsFound tile := by
  rw [found, sourceRectSz, h.rectangleOf_eq, decide_eq_true_iff]
  constructor
  · intro hpos
    by_contra hnone
    rw [getSourceRectangle_eq hnone] at hpos
    exact absurd hpos (by decide)
  · intro hfound
    obtain ⟨hwidth, hheight⟩ := rectangle_pos hfound
    exact Int.pos_iff_toNat_pos.mp (Int.mul_pos hwidth hheight)

omit [LinearOrder T] [FloorRing T] [Field T] in
theorem resetArena_triple :
    HostTriple s.HasBuffers [(.host resetArena : HostInstr _ (Option (TileData T)))] [] s.Ready :=
  .host fun ctx h => ⟨{ ctx with deviceMemoryArena := ctx.deviceMemoryArena.reset }, rfl,
    h.target, h.source, rfl, h.reserved⟩

/-- The thread is ready for the next tile, whether it has written this one or not. -/
theorem calculateTile_triple [IsStrictOrderedRing T] (hfits : s.FitsThread tile.target)
    (hsamples : s.CanSample tile.target) :
    HostTriple s.Ready (s.calculateTile tile) [s.tileResult tile] s.Ready := by
  by_cases hfound : s.IsFound tile.target
  · have hlocate := locateTile_triple hfits (hsamples hfound).1
    have hsample := HostTriple.branch_of_true none (keepsCond_sampleTile tile.target)
      (fun ctx h => h.found_iff.mpr hfound) (sampleTile_triple hfits hfound hsamples)
    have hresult : s.tileResult tile =
        some (tile.target, (rasterRead s.valueAt tile.target).map some) :=
      if_neg fun hempty => hfound (List.isEmpty_iff.mp hempty)
    rw [hresult]
    exact (hlocate.append hsample).append resetArena_triple
  · have hnone : acceptedCells s.band s.cells tile.target = [] := not_not.mp hfound
    have harea : Fits 32 ((getSourceRectangle s.band s.cells tile.target).width *
        (getSourceRectangle s.band s.cells tile.target).height) := by
      rw [getSourceRectangle_eq hfound]
      decide
    have hlocate := locateTile_triple hfits harea
    have hskip := HostTriple.branch_of_false none (s.sampleTile tile.target)
      fun ctx (h : s.Located tile.target ctx) =>
        Bool.eq_false_iff.mpr fun hcond => hfound (h.found_iff.mp hcond)
    have hskipped : (s.sampleTile tile.target).flatMap (HostInstr.skipped none) =
        [s.tileResult tile] := by
      rw [tileResult, if_pos (List.isEmpty_iff.mpr hnone), sampleTile]
      cases s.dbValues <;> rfl
    rw [hskipped] at hskip
    refine (hlocate.append hskip).append fun ctx h => resetArena_triple ctx h.buffers

omit [Field T] [LinearOrder T] [FloorRing T] in
/-- The host reads the rectangle while its description is still on its way to the device. -/
theorem commutes_readSource :
    Commutes s.readSource (copyResamplingTile : Action (PerThreadData T)) := by
  intro ctx
  show (s.readSource ctx).bind copyResamplingTile =
    s.readSource { ctx with dResamplingTile := some ctx.hResamplingTile }
  by_cases hlarge : s.sourceRectSz ctx > s.sourceBufferSize
  · have hread (ctx' : PerThreadData T) (hsame : s.sourceRectSz ctx' = s.sourceRectSz ctx) :
        s.readSource ctx' = _ := if_pos (hsame ▸ hlarge)
    rw [hread ctx rfl, hread { ctx with dResamplingTile := some ctx.hResamplingTile } rfl]
    dsimp only [sourceRectSz, rectangleOf]
    cases memcpy _ _ ctx.sourceBuffer <;> rfl
  · have hread (ctx' : PerThreadData T) (hsame : s.sourceRectSz ctx' = s.sourceRectSz ctx) :
        s.readSource ctx' = _ := if_neg (hsame ▸ hlarge)
    rw [hread ctx rfl, hread { ctx with dResamplingTile := some ctx.hResamplingTile } rfl]
    dsimp only [sourceRectSz, rectangleOf]
    cases memcpy _ _ ctx.hSourceTile <;> rfl

omit [Field T] [LinearOrder T] [FloorRing T] in
theorem commutes_allocTarget_copyResamplingTile (tile : Rectangle) :
    Commutes (allocTarget tile : Action (PerThreadData T)) copyResamplingTile := by
  intro ctx
  show (allocTarget tile ctx).bind copyResamplingTile =
    allocTarget tile { ctx with dResamplingTile := some ctx.hResamplingTile }
  unfold allocTarget
  dsimp only
  cases takeArray 4 (pixelCount tile) ctx.deviceMemoryArena <;> rfl

omit [Field T] [LinearOrder T] [FloorRing T] in
/-- The target is allocated while the samples are still on their way. -/
theorem commutes_allocTarget_copySource (tile : Rectangle) :
    Commutes (allocTarget tile) s.copySource := by
  intro ctx
  cases htaken : takeArray 4 (pixelCount tile) ctx.deviceMemoryArena <;>
    cases hstored : ctx.dSourceBuffer.store (s.sourceRectSz ctx)
      (if s.sourceRectSz ctx > s.sourceBufferSize then ctx.sourceBuffer else ctx.hSourceTile) <;>
    simp_all [allocTarget, copySource, sourceRectSz, rectangleOf]

/-- The host never touches what the stream may still use. -/
theorem disciplined_calculateTile (tile : TcTileCoordinates) :
    Disciplined [] (s.calculateTile tile) := by
  have hlocate : Disciplined [] (s.locateTile tile.target) := by
    simp [locateTile, Disciplined]
  have hsample : Disciplined [] (s.sampleTile tile.target) := by
    unfold sampleTile
    cases s.dbValues <;>
      simp [Disciplined, commutes_readSource, commutes_allocTarget_copyResamplingTile,
        commutes_allocTarget_copySource]
  have hbranch := hsample.branch none (keepsCond_sampleTile tile.target)
    fun op hop => absurd hop List.not_mem_nil
  exact (hlocate.append hbranch).append ⟨fun op hop => absurd hop List.not_mem_nil, rfl⟩

end Tile

/-! ## The image -/

section Image

variable {s}

/-- The tiles are not empty, not larger than they are asked to be, and partition the target. -/
theorem target_tiles (raster : TiledRaster) :
    ∃ tiles, Util.TerrainCorrection.targetTiles raster.width raster.height raster.tileWidth
        raster.tileHeight = .ok tiles ∧
      IsPartition raster.width raster.height (tiles.map TcTileCoordinates.target) ∧
      ∀ tile ∈ tiles, (0 < tile.target.width ∧ tile.target.width ≤ raster.tileWidth) ∧
        0 < tile.target.height ∧ tile.target.height ≤ raster.tileHeight := by
  obtain ⟨-, -, ⟨tiles, htiles, hpartition⟩, -⟩ := tileLists_cover raster 0 0 (Rectangle.unit 0 0)
    (Rectangle.unit 0 0)
  refine ⟨tiles, htiles, hpartition, fun tile htile => ?_⟩
  -- the tiles are those of the transposed raster, transposed
  rw [targetTiles_eq raster.columns raster.rows] at htiles
  obtain rfl := Outcome.ok.inj htiles
  obtain ⟨t, ht, rfl⟩ := List.mem_map.mp htile
  obtain ⟨hwidth, hheight⟩ := tile_sizes (r := ⟨raster.height, raster.width, raster.tileHeight,
    raster.tileWidth, raster.rows, raster.columns⟩) ht
  exact ⟨hheight, hwidth⟩

omit [Field T] [LinearOrder T] [FloorRing T] in
theorem fitsThread (hproduct : s.raster.tileWidth * s.raster.tileHeight < 2147483648)
    (hrows : s.raster.tileHeight < 1048560) (hreserves : s.Reserves) {tile : Rectangle}
    (hwidth : 0 < tile.width ∧ tile.width ≤ s.raster.tileWidth)
    (hheight : 0 < tile.height ∧ tile.height ≤ s.raster.tileHeight) : s.FitsThread tile := by
  have hsize : pixelCount tile ≤ s.maxTileSize := Nat.mul_le_mul (by omega) (by omega)
  have hmax : s.maxTileSize < 2 ^ 31 := by
    rw [maxTileSize, ← Int.toNat_mul (by omega) (by omega)]
    omega
  have haligned := alignUp_mono (Nat.mul_le_mul_left 8 hsize)
  have hcolumns : tile.width < 2147483648 :=
    lt_of_le_of_lt (le_trans hwidth.2 (le_mul_of_one_le_right (by omega) (by omega))) hproduct
  refine ⟨by omega, hsize, ?_, ?_, ?_, ?_⟩
  · unfold Reserves at hreserves
    omega
  · unfold gpuMemSz
    dsimp only
    omega
  · simp only [Dim3.Valid, gridDim]
    omega
  · simp only [Dim3.Valid, mainKernelGridSize]
    omega

/-- The tiles that are written have their values, and touch nothing else. -/
theorem paintsTiles {tiles : List TcTileCoordinates} :
    PaintsTiles writeTile tiles s.tileResult
      (fun tile k => tile.target.Contains k.1 k.2 ∧ s.IsFound tile.target)
      (fun _ k => some (s.valueAt k)) where
  inside tile _ k hin image := by
    rw [tileResult, if_neg fun hempty => hin.2 (List.isEmpty_iff.mp hempty)]
    refine (if_pos hin.1).trans ?_
    rw [List.getElem?_map, getElem?_rasterRead _ hin.1]
    rfl
  outside tile _ k hout image := by
    unfold tileResult
    split_ifs with hempty
    · rfl
    · exact if_neg fun hin => hout ⟨hin, fun hnone => hempty (List.isEmpty_iff.mpr hnone)⟩
  agree _ _ _ _ _ _ _ := rfl

theorem tiledRange_onePixel : TiledRange 1 25 := ⟨by decide, by decide, by decide⟩

/-- One pixel, between two rows of the wide image. -/
def onePixel : SharedThreadData ℚ where
  raster := ⟨1, 1, 25, 25, tiledRange_onePixel, tiledRange_onePixel⟩
  band := wideImage
  cells := oneCell (9 / 2) (1 / 2)
  targetNoDataValue := -1
  dbValues := false
  toDb value := value
  order := ⟨id, fun steps => .refl steps⟩

end Image

end SharedThreadData

end Alus.TerrainCorrection
