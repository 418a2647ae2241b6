import Alus.Coherence.CohTilesGenerator
import Alus.Coherence.TileCover
import Alus.Util.DeviceBuffer
import Alus.Util.RasterArea

/-!
# The runner of the coherence tiles

`CUDAAlgorithmRunner` (`coherence-cuda/src/cuda_algorithm_runner.cc`): up to four threads take tiles
from the queue. A thread reads the bands of a tile one after the other into one host buffer and
copies each to the device on its stream, starts the kernels of the tile, copies their result back
into the same buffer and writes it. The copies are asynchronous; the buffer is filled again only
after the stream has been waited for.

What the kernels of a tile compute is left open here: it is a function of the tile and of the bands.
-/

namespace Alus.Coherence

open Alus.Lib Alus.Util Alus.Cuda

variable {F : Type*}

/-! ## Reading and writing tiles -/

def Tile.pixelCount (t : Tile) : Nat := (t.getXSize * t.getYSize).toNat

/-- The window of the raster that is read for a tile, or written. -/
def Tile.window (t : Tile) : Rectangle := ⟨t.xMin, t.yMin, t.getXSize, t.getYSize⟩

/-- `GdalTileReader`: the raster bands of each of its datasets. -/
structure GdalTileReader (F : Type*) where
  datasets : List (List (RasterBand F))

/-- The band that `ReadTile` reads: the bands are in one dataset, or each in its own. -/
def GdalTileReader.band (reader : GdalTileReader F) (bandNr : Nat) : Option (RasterBand F) :=
  if reader.datasets.length = 1 then
    reader.datasets[0]?.bind fun dataset => dataset[bandNr - 1]?
  else
    reader.datasets[bandNr - 1]?.bind fun dataset => dataset[0]?

/-! ## A thread -/

/-- The bands that a thread reads. -/
inductive InputBand where
  | masterReal | masterImag | slaveReal | slaveImag | etadIfg
  deriving DecidableEq

def InputBand.number : InputBand → Nat
  | masterReal => 1
  | masterImag => 2
  | slaveReal => 3
  | slaveImag => 4
  | etadIfg => 5

/-- `ThreadContext`: the device buffers of the bands and of the output, and the transfer buffer. -/
structure ThreadContext (F : Type*) where
  dBand : InputBand → DeviceBuffer F
  dTileOut : DeviceBuffer F
  hBuffer : List (Option F)

structure CUDAAlgorithmRunner (F : Type*) where
  tileReader : GdalTileReader F
  isEtadEnabled : Bool
  /-- what the kernels of `TileCalc` compute of the bands -/
  tileCalc : CohTile → List (List F) → List F
  length_tileCalc : ∀ tile bands, (tileCalc tile bands).length = tile.tileOut.pixelCount

namespace CUDAAlgorithmRunner

variable (r : CUDAAlgorithmRunner F)

/-- The bands of a tile, in the order in which they are read. -/
def inputBands : List InputBand :=
  [.masterReal, .masterImag, .slaveReal, .slaveImag] ++
    if r.isEtadEnabled then [.etadIfg] else []

/-- `ReadTile`, into the host buffer. -/
def readTile (tile : CohTile) (b : InputBand) : Action (ThreadContext F) := fun ctx => do
  let band ← r.tileReader.band b.number
  let hBuffer ← memcpy tile.tileIn.pixelCount ((rasterRead band tile.tileIn.window).map some)
    ctx.hBuffer
  return { ctx with hBuffer := hBuffer }

def resizeBand (tile : CohTile) (b : InputBand) : Action (ThreadContext F) := fun ctx =>
  some { ctx with
    dBand := Function.update ctx.dBand b ((ctx.dBand b).resize tile.tileIn.pixelCount) }

/-- `CopyArrayAsyncH2D`, of the host buffer. -/
def copyBand (tile : CohTile) (b : InputBand) : Action (ThreadContext F) := fun ctx => do
  let buffer ← (ctx.dBand b).store tile.tileIn.pixelCount ctx.hBuffer
  return { ctx with dBand := Function.update ctx.dBand b buffer }

/-- `TileCalc` on the host: the output is resized. -/
def resizeTileOut (tile : CohTile) : Action (ThreadContext F) := fun ctx =>
  some { ctx with dTileOut := ctx.dTileOut.resize tile.tileOut.pixelCount }

/-- `TileCalc` on the device. -/
def runKernels (tile : CohTile) : Action (ThreadContext F) := fun ctx => do
  let bands ← r.inputBands.mapM fun b => (ctx.dBand b).values
  let result := r.tileCalc tile bands
  let buffer ← ctx.dTileOut.store result.length (result.map some)
  return { ctx with dTileOut := buffer }

/-- `CopyArrayAsyncD2H`, to the host buffer. -/
def copyTileOut : Action (ThreadContext F) := fun ctx => do
  let hBuffer ← memcpy ctx.dTileOut.elemCount ctx.dTileOut.cells ctx.hBuffer
  return { ctx with hBuffer := hBuffer }

/-- The check of `WriteTile`, for one band. -/
def checkTileData (tile : CohTile) : Action (ThreadContext F) := fun ctx =>
  if ctx.dTileOut.elemCount > tile.tileOut.pixelCount then none else some ctx

/-- What `WriteTile` writes. -/
def tileData (tile : CohTile) (ctx : ThreadContext F) : TileData F :=
  (tile.tileOut.window, ctx.hBuffer.take tile.tileOut.pixelCount)

def loadBand (tile : CohTile) (b : InputBand) :
    List (HostInstr (ThreadContext F) (TileData F)) :=
  [.host (r.readTile tile b), .host (resizeBand tile b), .enqueue (copyBand tile b)]

/-- From the last band on: nothing is waited for before the kernels are started. -/
def loadAndCompute (tile : CohTile) (b : InputBand) :
    List (HostInstr (ThreadContext F) (TileData F)) :=
  r.loadBand tile b ++
    [.host (resizeTileOut tile), .enqueue (r.runKernels tile), .enqueue copyTileOut,
      .synchronize, .host (checkTileData tile), .write (tileData tile)]

/-- The body of the loop of `ThreadRun`, after the pop. -/
def processTile (tile : CohTile) : List (HostInstr (ThreadContext F) (TileData F)) :=
  r.loadBand tile .masterReal ++ [.synchronize] ++
    (r.loadBand tile .masterImag ++ [.synchronize] ++
      (r.loadBand tile .slaveReal ++ [.synchronize] ++
        if r.isEtadEnabled then
          r.loadBand tile .slaveImag ++ [.synchronize] ++ r.loadAndCompute tile .etadIfg
        else
          r.loadAndCompute tile .slaveImag))

/-- `n_threads`. -/
def nThreads (tiles : List CohTile) : Nat := if 0 < tiles.length / 4 then 4 else 1

/-- `Run`: each thread has allocated its host buffer for the largest tile. -/
def run (tiles : List CohTile) (maxTileSz : Int) :
    System (WorkersState CohTile (Fin (nThreads tiles)) (ThreadContext F) (TileData F)) :=
  workers (Fin (nThreads tiles)) r.processTile (fun ctx => ctx.hBuffer.length = maxTileSz.toNat)
    tiles

/-! ## What the runner is for -/

/-- What a tile provider gives: proper tiles, each with its output in its input, and the outputs of
no two tiles meet. -/
structure Provides (tiles : List CohTile) (maxTileSz : Int) : Prop where
  proper : ∀ t ∈ tiles, t.tileOut.xMin ≤ t.tileOut.xMax ∧ t.tileOut.yMin ≤ t.tileOut.yMax
  disjoint : tiles.Pairwise fun t t' =>
    ∀ x y, t.tileOut.Contains x y → ¬ t'.tileOut.Contains x y
  out_in : ∀ t ∈ tiles, ∀ x y, t.tileOut.Contains x y → t.tileIn.Contains x y
  buffer : maxInTileSz tiles = .ok maxTileSz

/-- Every band that is read is there. -/
def HasBands : Prop := ∀ b ∈ r.inputBands, ∃ band, r.tileReader.band b.number = some band

/-- The pixels of a band in the input of a tile. -/
def bandData (tile : CohTile) (b : InputBand) : List F :=
  match r.tileReader.band b.number with
  | some band => rasterRead band tile.tileIn.window
  | none => []

/-- The coherence of a tile. -/
def coherence (tile : CohTile) : List F :=
  r.tileCalc tile (r.inputBands.map (r.bandData tile))

/-- The coherence at a pixel of the output of a tile. -/
def coherenceAt (tile : CohTile) (k : Int × Int) : Option F :=
  (r.coherence tile)[pixelIndex tile.tileOut.window k]?

/-- What a state of the runner should be: the pixels of the output of a tile get its coherence. -/
def RunsWell (tiles : List CohTile) (initial : Int × Int → Option F)
    (s : WorkersState CohTile (Fin (nThreads tiles)) (ThreadContext F) (TileData F)) : Prop :=
  WritesImage r.processTile rasterWrite tiles
    (fun tile k => tile.tileOut.window.Contains k.1 k.2) r.coherenceAt initial s

/-! ## Tiles -/

theorem Tile.window_contains {t : Tile} {x y : Int} :
    t.window.Contains x y ↔ t.Contains x y := by
  simp only [Tile.window, Rectangle.Contains, Tile.Contains, Tile.getXSize, Tile.getYSize]
  omega

theorem pixelCount_window {tile : Tile} (hx : 0 ≤ tile.getXSize) :
    Util.pixelCount tile.window = tile.pixelCount := by
  rcases le_or_gt 0 tile.getYSize with hy | hy
  · rw [Tile.pixelCount, Int.toNat_mul hx hy]
    rfl
  · rw [Tile.pixelCount, Util.pixelCount, Tile.window, Int.toNat_of_nonpos hy.le, Nat.mul_zero,
      Int.toNat_of_nonpos (Int.mul_nonpos_of_nonneg_of_nonpos hx hy.le)]

section Tiles

variable {tiles : List CohTile} {maxTileSz : Int} (h : Provides tiles maxTileSz) {t : CohTile}
  (ht : t ∈ tiles)

include h ht

/-- The input of a tile is not smaller than its output. -/
theorem Provides.sizes : 1 ≤ t.tileOut.getXSize ∧ t.tileOut.getXSize ≤ t.tileIn.getXSize ∧
    1 ≤ t.tileOut.getYSize ∧ t.tileOut.getYSize ≤ t.tileIn.getYSize := by
  obtain ⟨hx, hy⟩ := h.proper t ht
  have hfirst := h.out_in t ht t.tileOut.xMin t.tileOut.yMin
    ⟨Int.le_refl _, hx, Int.le_refl _, hy⟩
  have hlast := h.out_in t ht t.tileOut.xMax t.tileOut.yMax
    ⟨hx, Int.le_refl _, hy, Int.le_refl _⟩
  simp only [Tile.Contains, Tile.getXSize, Tile.getYSize] at hfirst hlast ⊢
  omega

theorem Provides.pixelCount_le : t.tileOut.pixelCount ≤ t.tileIn.pixelCount ∧
    t.tileIn.pixelCount ≤ maxTileSz.toNat := by
  obtain ⟨hx, hxIn, hy, hyIn⟩ := h.sizes ht
  have hle := ((maxInTileSz_spec h.buffer).2 t ht).2
  rw [Int.mul_comm] at hle
  exact ⟨Int.toNat_le_toNat (Int.mul_le_mul hxIn hyIn (by omega) (by omega)),
    Int.toNat_le_toNat hle⟩

end Tiles

/-! ## One tile after another -/

/-- The host buffer is that of the largest tile, and these bands of the tile are on the device. -/
structure Loaded (tile : CohTile) (size : Nat) (bands : List InputBand) (ctx : ThreadContext F) :
    Prop where
  buffer : ctx.hBuffer.length = size
  bands : ∀ b ∈ bands, (ctx.dBand b).values = some (r.bandData tile b)

variable {r} {tile : CohTile} {size : Nat} {bands : List InputBand} {b : InputBand}

/-- A further band is loaded; the others are not touched. -/
theorem loadBand_triple (hread : (r.bandData tile b).length = tile.tileIn.pixelCount)
    (hband : ∃ band, r.tileReader.band b.number = some band)
    (hsize : tile.tileIn.pixelCount ≤ size) (hnew : b ∉ bands) :
    HostTriple (r.Loaded tile size bands) (r.loadBand tile b) []
      (r.Loaded tile size (bands ++ [b])) := by
  obtain ⟨band, hband⟩ := hband
  have hdata : r.bandData tile b = rasterRead band tile.tileIn.window := by rw [bandData, hband]
  rw [hdata] at hread
  have hother {ctx : ThreadContext F} {buffer : DeviceBuffer F} (h : r.Loaded tile size bands ctx)
      {b' : InputBand} (hb' : b' ∈ bands) :
      (Function.update ctx.dBand b buffer b').values = some (r.bandData tile b') := by
    rw [Function.update_of_ne fun heq : b' = b => hnew (heq ▸ hb')]
    exact h.bands b' hb'
  have hreadTile : HostTriple (r.Loaded tile size bands)
      [(.host (r.readTile tile b) : HostInstr _ (TileData F))] []
      fun ctx => r.Loaded tile size bands ctx ∧ ctx.hBuffer.take tile.tileIn.pixelCount =
        (rasterRead band tile.tileIn.window).map some := by
    refine .host fun ctx h => ?_
    obtain ⟨copied, hcopied, hlength, htake⟩ :=
      memcpy_of_le ((rasterRead band tile.tileIn.window).map some) ctx.hBuffer
        (by rw [List.length_map, hread]) (by rw [h.buffer]; exact hsize)
    refine ⟨{ ctx with hBuffer := copied }, ?_, ⟨hlength.trans h.buffer, h.bands⟩, ?_⟩
    · simp only [readTile, hband, hcopied, Option.bind_eq_bind, Option.bind_some, Option.pure_def]
    · rw [htake, List.take_of_length_le (by rw [List.length_map, hread])]
  have hresize : HostTriple (fun ctx => r.Loaded tile size bands ctx ∧
        ctx.hBuffer.take tile.tileIn.pixelCount = (rasterRead band tile.tileIn.window).map some)
      [(.host (resizeBand tile b) : HostInstr _ (TileData F))] []
      fun ctx => (r.Loaded tile size bands ctx ∧ ctx.hBuffer.take tile.tileIn.pixelCount =
        (rasterRead band tile.tileIn.window).map some) ∧
        (ctx.dBand b).elemCount = tile.tileIn.pixelCount := by
    refine .host fun ctx h => ⟨_, rfl, ⟨⟨h.1.buffer, fun b' hb' => hother h.1 hb'⟩, h.2⟩, ?_⟩
    simp
  have hcopy : HostTriple (fun ctx => (r.Loaded tile size bands ctx ∧
        ctx.hBuffer.take tile.tileIn.pixelCount = (rasterRead band tile.tileIn.window).map some) ∧
        (ctx.dBand b).elemCount = tile.tileIn.pixelCount)
      [(.enqueue (copyBand tile b) : HostInstr _ (TileData F))] []
      (r.Loaded tile size (bands ++ [b])) := by
    refine .enqueue fun ctx h => ?_
    rw [← hread] at h
    obtain ⟨stored, hstored, hcount, hcells⟩ := (ctx.dBand b).store_elements _ _ h.2 h.1.2
    have hvalues := DeviceBuffer.values_eq hcount hcells
    rw [hread] at hstored
    refine ⟨{ ctx with dBand := Function.update ctx.dBand b stored }, ?_, h.1.1.buffer, ?_⟩
    · simp only [copyBand, hstored, Option.bind_eq_bind, Option.bind_some, Option.pure_def]
    · intro b' hb'
      rcases List.mem_append.mp hb' with hb' | hb'
      · exact hother h.1.1 hb'
      · obtain rfl := List.mem_singleton.mp hb'
        dsimp only
        rw [Function.update_self, hvalues, hdata]
  exact hreadTile.append (hresize.append hcopy)

/-- The bands that are loaded are what the kernels read. -/
theorem Loaded.mapM_values {ctx : ThreadContext F} (h : r.Loaded tile size bands ctx) :
    (bands.mapM fun b => (ctx.dBand b).values) = some (bands.map (r.bandData tile)) := by
  obtain ⟨-, hbands⟩ := h
  induction bands with
  | nil => rfl
  | cons b bands ih =>
    rw [List.mapM_cons, hbands b List.mem_cons_self,
      ih fun b' hb' => hbands b' (List.mem_cons_of_mem b hb')]
    rfl

/-- From the bands of the tile its coherence is computed and written. -/
theorem compute_triple (hout : tile.tileOut.pixelCount ≤ size) :
    HostTriple (r.Loaded tile size r.inputBands)
      [.host (resizeTileOut tile), .enqueue (r.runKernels tile), .enqueue copyTileOut,
        .synchronize, .host (checkTileData tile), .write (tileData tile)]
      [(tile.tileOut.window, (r.coherence tile).map some)]
      fun ctx => ctx.hBuffer.length = size := by
  have hlength : (r.coherence tile).length = tile.tileOut.pixelCount := r.length_tileCalc _ _
  intro ctx h
  have hbands := h.mapM_values
  -- the result of the kernels is what the output begins with
  obtain ⟨stored, hstored, hcount, hcells⟩ :=
    (ctx.dTileOut.resize tile.tileOut.pixelCount).store_elements
      (r.coherence tile) ((r.coherence tile).map some) (by simp [hlength])
      (List.take_of_length_le (Nat.le_of_eq (List.length_map _)))
  have hstoredLength := stored.elemCount_le
  -- and the host buffer begins with it after the copy
  obtain ⟨copied, hcopied, hcopiedLength, htake⟩ := memcpy_of_le stored.cells
    ctx.hBuffer hstoredLength (show stored.elemCount ≤ ctx.hBuffer.length by
      rw [hcount, hlength, h.buffer]
      exact hout)
  rw [hcount, hcells, hlength] at htake
  refine ⟨⟨ctx.dBand, stored, copied⟩, hcopiedLength.trans h.buffer, ?_⟩
  have hcheck : ¬ stored.elemCount > tile.tileOut.pixelCount := by
    rw [hcount, hlength]
    exact Nat.lt_irrefl _
  simp only [runSequential, resizeTileOut, runKernels, copyTileOut, checkTileData, tileData,
    hbands, Option.bind_eq_bind, Option.bind_some, Option.pure_def, Option.map_some]
  rw [← coherence, hstored]
  simp only [Option.bind_some, hcopied, if_neg hcheck, htake]

/-- The output can be resized while a band is still on its way to the device. -/
theorem commutes_resizeTileOut (tile : CohTile) (b : InputBand) :
    Commutes (resizeTileOut tile : Action (ThreadContext F)) (copyBand tile b) := by
  intro ctx
  simp only [resizeTileOut, copyBand, Option.bind_eq_bind, Option.bind_some, Option.pure_def]
  cases (ctx.dBand b).store tile.tileIn.pixelCount ctx.hBuffer with
  | none => rfl
  | some buffer => rfl

/-- The host never touches what the stream may still use. -/
theorem disciplined_processTile (tile : CohTile) : Disciplined [] (r.processTile tile) := by
  have hsync (b : InputBand) : Disciplined [] (r.loadBand tile b ++ [.synchronize]) := by
    simp [loadBand, Disciplined]
  have hlast (b : InputBand) : Disciplined [] (r.loadAndCompute tile b) := by
    simp [loadAndCompute, loadBand, Disciplined, commutes_resizeTileOut]
  refine (hsync _).append ((hsync _).append ((hsync _).append ?_))
  split
  · exact (hsync _).append (hlast _)
  · exact hlast _

section Run

variable {tiles : List CohTile} {maxTileSz : Int}

theorem processTile_triple (hprovides : Provides tiles maxTileSz) (hbands : r.HasBands)
    (htile : tile ∈ tiles) :
    HostTriple (fun ctx => ctx.hBuffer.length = maxTileSz.toNat) (r.processTile tile)
      [(tile.tileOut.window, (r.coherence tile).map some)]
      fun ctx => ctx.hBuffer.length = maxTileSz.toNat := by
  obtain ⟨hout, hin⟩ := hprovides.pixelCount_le htile
  have hsizes := hprovides.sizes htile
  have hload (bands : List InputBand) (b : InputBand) (hb : b ∈ r.inputBands) (hnew : b ∉ bands) :
      HostTriple (r.Loaded tile maxTileSz.toNat bands) (r.loadBand tile b) []
        (r.Loaded tile maxTileSz.toNat (bands ++ [b])) := by
    obtain ⟨band, hband⟩ := hbands b hb
    refine loadBand_triple ?_ ⟨band, hband⟩ hin hnew
    rw [bandData, hband]
    exact (length_rasterRead band _).trans (pixelCount_window (by omega))
  have hcompute := compute_triple (r := r) (hout.trans hin)
  have hstart : HostTriple (fun ctx => r.Loaded tile maxTileSz.toNat [] ctx) (r.processTile tile)
      [(tile.tileOut.window, (r.coherence tile).map some)]
      fun ctx => ctx.hBuffer.length = maxTileSz.toNat := by
    have hmem {b : InputBand} (hb : b ∈ [.masterReal, .masterImag, .slaveReal, .slaveImag]) :
        b ∈ r.inputBands := List.mem_append_left _ hb
    have hreal := (hload [] .masterReal (hmem (by simp)) (by simp)).append .synchronize
    have himag := (hload [.masterReal] .masterImag (hmem (by simp)) (by simp)).append
      .synchronize
    have hslave := (hload [.masterReal, .masterImag] .slaveReal (hmem (by simp))
      (by simp)).append .synchronize
    have hslaveImag := hload [.masterReal, .masterImag, .slaveReal] .slaveImag
      (hmem (by simp)) (by simp)
    cases hetad : r.isEtadEnabled with
    | true =>
      have hinputs : r.inputBands =
          [.masterReal, .masterImag, .slaveReal, .slaveImag, .etadIfg] := by
        rw [inputBands, if_pos hetad]
        rfl
      have hifg := hload [.masterReal, .masterImag, .slaveReal, .slaveImag] .etadIfg
        (by simp [hinputs]) (by simp)
      rw [hinputs] at hcompute
      rw [processTile, if_pos hetad]
      exact hreal.append (himag.append (hslave.append
        ((hslaveImag.append .synchronize).append (hifg.append hcompute))))
    | false =>
      have hinputs : r.inputBands = [.masterReal, .masterImag, .slaveReal, .slaveImag] := by
        rw [inputBands, if_neg (by simp [hetad])]
        rfl
      rw [hinputs] at hcompute
      rw [processTile, if_neg (by simp [hetad])]
      exact hreal.append (himag.append (hslave.append (hslaveImag.append hcompute)))
  exact fun ctx h => hstart ctx ⟨h, fun b hb => nomatch hb⟩

theorem computes (hprovides : Provides tiles maxTileSz) (hbands : r.HasBands) :
    ComputesTiles r.processTile (fun ctx => ctx.hBuffer.length = maxTileSz.toNat)
      (fun tile => [(tile.tileOut.window, (r.coherence tile).map some)]) tiles :=
  ⟨fun tile _ => disciplined_processTile tile,
    fun _ htile => processTile_triple hprovides hbands htile⟩

/-! ## The output -/

theorem paintsTiles (hprovides : Provides tiles maxTileSz) :
    PaintsTiles rasterWrite tiles
      (fun tile => (tile.tileOut.window, (r.coherence tile).map some))
      (fun tile k => tile.tileOut.window.Contains k.1 k.2) r.coherenceAt := by
  refine paintsTiles_rasterWrite _ _ _ (fun tile _ k hin => ?_) fun t ht t' ht' k hin hin' => ?_
  · rw [coherenceAt, List.getElem?_map]
    cases (r.coherence tile)[pixelIndex tile.tileOut.window k]? <;> rfl
  · rw [eq_of_contains hprovides.disjoint ht ht' (Tile.window_contains.mp hin)
      (Tile.window_contains.mp hin')]

/-- One pixel. -/
def onePixel : CohTile := ⟨0, 0, ⟨0, 0, 0, 0⟩, ⟨0, 0, 0, 0⟩, 0, 0, 0, 0, 0, 1⟩

/-- Four bands in one dataset; the kernels add all pixels. -/
def addingRunner : CUDAAlgorithmRunner Nat where
  tileReader := ⟨[[fun _ => 1, fun _ => 2, fun _ => 3, fun _ => 4]]⟩
  isEtadEnabled := false
  tileCalc tile bands := List.replicate tile.tileOut.pixelCount bands.flatten.sum
  length_tileCalc _ _ := List.length_replicate

theorem provides_onePixel : Provides [onePixel] 1 where
  proper := by decide
  disjoint := List.pairwise_singleton _ _
  out_in t ht x y hin := by
    obtain rfl := List.mem_singleton.mp ht
    exact hin
  buffer := by decide

end Run

/-- A cover of the band is what the runner asks of its tiles. -/
theorem provides_of_covers {g : CohTilesGenerator} {whole : Bool} {tiles : List CohTile}
    (h : g.Covers whole tiles) : ∃ maxTileSz, Provides tiles maxTileSz := by
  obtain ⟨size, hsize, -⟩ := h.buffer
  exact ⟨size, h.proper, h.disjoint, h.out_in, hsize⟩

end CUDAAlgorithmRunner

end Alus.Coherence
