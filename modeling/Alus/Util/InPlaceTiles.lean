import Alus.Lib.InPlace
import Alus.Util.CudaMemArena
import Alus.Util.DeviceBuffer
import Alus.Util.RasterArea
import Alus.Util.TileLists

/-!
# Tiles that are computed in place

Calibration and thermal noise removal read a tile into the buffer of the thread, copy it to the
device, replace each of its elements there by the result for its pixel, and copy it back into the
same buffer, from which it is written. An element is four bytes for the input and for the result.
The device memory is taken from an arena, which is reset when the tile has come back.
-/

namespace Alus.Util

open Alus.Lib Alus.Cuda

/-- What a computation of the device returns, if it is defined. -/
def toOption {α : Type} : Outcome α → Option α
  | .ok a => some a
  | _ => none

@[simp] theorem toOption_ok {α : Type} (a : α) : toOption (.ok a) = some a := rfl

/-- The buffer of a thread, its arena, the elements on the device, and what else the kernels of the
tile have there. -/
structure TileContext (D E : Type) where
  hTileBuffer : List (Option D)
  devMemArena : MemArena
  dPixelBuffer : List (Option D)
  device : E

namespace TileContext

variable {D E F : Type}

/-! ## The steps -/

/-- `RasterIO` with `GF_Read`. -/
def readTile (band : RasterBand D) (window : Rectangle) : Action (TileContext D E) := fun ctx => do
  let buffer ← memcpy (pixelCount window) ((rasterRead band window).map some) ctx.hTileBuffer
  return { ctx with hTileBuffer := buffer }

/-- `AllocArray`. An overrun throws, which ends the thread. -/
def takeArray (sizeOf count : Nat) (arena : MemArena) : Option MemArena :=
  match arena.allocArray (UInt64.ofNat sizeOf) (UInt64.ofNat count) with
  | (.ok _, arena) => some arena
  | (.error _, _) => none

/-- The array for the elements. What it holds is not known. -/
def allocPixels (count : Nat) : Action (TileContext D E) := fun ctx => do
  let arena ← takeArray 4 count ctx.devMemArena
  return { ctx with devMemArena := arena, dPixelBuffer := List.replicate count none }

/-- Another array. -/
def allocDevice (sizeOf count : Nat) (placed : E) : Action (TileContext D E) := fun ctx => do
  let arena ← takeArray sizeOf count ctx.devMemArena
  return { ctx with devMemArena := arena, device := placed }

/-- `cudaMemcpyAsync`, to the device. -/
def copyToDevice (count : Nat) : Action (TileContext D E) := fun ctx => do
  let buffer ← memcpy count ctx.hTileBuffer ctx.dPixelBuffer
  return { ctx with dPixelBuffer := buffer }

/-- A kernel over the elements. -/
def runKernel (kernel : E → List (Option D) → Option (List (Option D))) :
    Action (TileContext D E) := fun ctx => do
  let buffer ← kernel ctx.device ctx.dPixelBuffer
  return { ctx with dPixelBuffer := buffer }

/-- A kernel over what else is on the device. -/
def prepareDevice (kernel : E → Option E) : Action (TileContext D E) := fun ctx => do
  let device ← kernel ctx.device
  return { ctx with device := device }

/-- `cudaMemcpyAsync`, to the host. -/
def copyToHost (count : Nat) : Action (TileContext D E) := fun ctx => do
  let buffer ← memcpy count ctx.dPixelBuffer ctx.hTileBuffer
  return { ctx with hTileBuffer := buffer }

def resetArena : Action (TileContext D E) := fun ctx =>
  some { ctx with devMemArena := ctx.devMemArena.reset }

/-- What `RasterIO` writes of the buffer, with the elements read as results. -/
def tileData (result : D → Option F) (window : Rectangle) (ctx : TileContext D E) : TileData F :=
  (window, (ctx.hTileBuffer.take (pixelCount window)).map fun cell => cell.bind result)

/-- The elements of a tile are read, and start on their way to the device. -/
def loadTile (band : RasterBand D) (window : Rectangle) :
    List (HostInstr (TileContext D E) (TileData F)) :=
  [.host (readTile band window), .host (allocPixels (pixelCount window)),
    .enqueue (copyToDevice (pixelCount window))]

/-- The elements are replaced, brought back and written; the arena is reset on the way. -/
def storeTile (kernel : E → List (Option D) → Option (List (Option D))) (result : D → Option F)
    (window : Rectangle) : List (HostInstr (TileContext D E) (TileData F)) :=
  [.enqueue (runKernel kernel), .enqueue (copyToHost (pixelCount window)), .synchronize,
    .host resetArena, .write (tileData result window)]

/-- Before a tile: a buffer for the largest one and an empty arena. -/
structure Ready (size maxBytes : Nat) (ctx : TileContext D E) : Prop where
  buffer : ctx.hTileBuffer.length = size
  unused : ctx.devMemArena.usedByteSize = 0
  reserved : ctx.devMemArena.maxByteSize.toNat = maxBytes

/-- The elements are on the device. -/
structure Loaded (size maxBytes : Nat) (data : List D) (ctx : TileContext D E) : Prop where
  buffer : ctx.hTileBuffer.length = size
  reserved : ctx.devMemArena.maxByteSize.toNat = maxBytes
  pixels : ctx.dPixelBuffer = data.map some

/-! ## What they do -/

section Steps

variable (ctx : TileContext D E)

theorem readTile_eq (band : RasterBand D) (window : Rectangle)
    (hsize : pixelCount window ≤ ctx.hTileBuffer.length) :
    ∃ buffer, readTile band window ctx = some { ctx with hTileBuffer := buffer } ∧
      buffer.length = ctx.hTileBuffer.length ∧
      buffer.take (pixelCount window) = (rasterRead band window).map some := by
  obtain ⟨buffer, hcopied, hlength, htake⟩ :=
    memcpy_of_le ((rasterRead band window).map some) ctx.hTileBuffer (by simp) hsize
  refine ⟨buffer, ?_, hlength, ?_⟩
  · simp only [readTile, hcopied, Option.bind_eq_bind, Option.bind_some, Option.pure_def]
  · rw [htake, List.take_of_length_le (by simp)]

/-- An array that fits is taken from the arena. -/
theorem takeArray_eq (arena : MemArena) (sizeOf count : Nat) (hsizeOf : sizeOf < 2 ^ 32)
    (hcount : count < 2 ^ 31)
    (hfits : sizeOf * count + arena.usedByteSize.toNat ≤ arena.maxByteSize.toNat)
    (hlimit : sizeOf * count + arena.usedByteSize.toNat + 128 ≤ 2 ^ 64) :
    ∃ used : UInt64, takeArray sizeOf count arena = some { arena with usedByteSize := used } ∧
      used.toNat = alignUp 128 (sizeOf * count + arena.usedByteSize.toNat) := by
  have hasked : (Asked.array (UInt64.ofNat sizeOf) (UInt64.ofNat count)).size = sizeOf * count := by
    rw [Asked.size, UInt64.toNat_ofNat_of_lt' (show sizeOf < 2 ^ 64 by omega),
      UInt64.toNat_ofNat_of_lt' (show count < 2 ^ 64 by omega)]
  have hnot : ¬ Overruns arena (.array (UInt64.ofNat sizeOf) (UInt64.ofNat count)) := by
    rw [Overruns, hasked]
    omega
  obtain ⟨devPtr, used, hallocate, -, hused⟩ := allocate_of_le (sum_mod_le_of_fits hnot)
  rw [hasked] at hused
  change arena.allocArray _ _ = _ at hallocate
  exact ⟨used, by rw [takeArray, hallocate], hused hlimit⟩

theorem copyToDevice_eq (data : List D)
    (hhost : ctx.hTileBuffer.take data.length = data.map some)
    (hdevice : ctx.dPixelBuffer.length = data.length) :
    copyToDevice data.length ctx = some { ctx with dPixelBuffer := data.map some } := by
  have hlength := congrArg List.length hhost
  rw [List.length_take, List.length_map] at hlength
  simp only [copyToDevice, memcpy, if_pos (show data.length ≤ ctx.hTileBuffer.length ∧
    data.length ≤ ctx.dPixelBuffer.length by omega), Option.bind_eq_bind, Option.bind_some,
    Option.pure_def, hhost]
  rw [List.drop_eq_nil_of_le hdevice.le, List.append_nil]

theorem copyToHost_eq (data : List D) (hdevice : ctx.dPixelBuffer = data.map some)
    (hsize : data.length ≤ ctx.hTileBuffer.length) :
    ∃ buffer, copyToHost data.length ctx = some { ctx with hTileBuffer := buffer } ∧
      buffer.length = ctx.hTileBuffer.length ∧ buffer.take data.length = data.map some := by
  obtain ⟨buffer, hcopied, hlength, htake⟩ := memcpy_of_le (n := data.length) ctx.dPixelBuffer
    ctx.hTileBuffer (by rw [hdevice, List.length_map]) hsize
  refine ⟨buffer, ?_, hlength, ?_⟩
  · simp only [copyToHost, hcopied, Option.bind_eq_bind, Option.bind_some, Option.pure_def]
  · rw [htake, hdevice, List.take_of_length_le (by rw [List.length_map])]

theorem tileData_eq (result : D → Option F) {window : Rectangle} {data : List D}
    (hlength : data.length = pixelCount window)
    (hbuffer : ctx.hTileBuffer.take data.length = data.map some) :
    tileData result window ctx = (window, data.map result) := by
  rw [tileData, ← hlength, hbuffer, List.map_map]
  rfl

end Steps

section Triples

variable {size : Nat} {window : Rectangle}

/-- The elements are the first array of the arena. -/
theorem loadTile_triple {maxBytes : Nat} {Q : E → Prop} (band : RasterBand D)
    (hcount : pixelCount window < 2 ^ 31) (hsize : pixelCount window ≤ size)
    (hfits : 4 * pixelCount window ≤ maxBytes) :
    HostTriple (fun ctx => Ready size maxBytes ctx ∧ Q ctx.device)
      (loadTile band window : List (HostInstr (TileContext D E) (TileData F))) []
      fun ctx => Loaded size maxBytes (rasterRead band window) ctx ∧
        ctx.devMemArena.usedByteSize.toNat = alignUp 128 (4 * pixelCount window) ∧
        Q ctx.device := by
  rintro ctx ⟨hready, hdevice⟩
  obtain ⟨buffer, hread, hlength, htake⟩ := readTile_eq ctx band window
    (by rw [hready.buffer]; exact hsize)
  have hzero : ctx.devMemArena.usedByteSize.toNat = 0 := by
    rw [hready.unused]
    rfl
  have hreserved := hready.reserved
  obtain ⟨used, htaken, hused⟩ := takeArray_eq ctx.devMemArena 4 (pixelCount window)
    (by omega) hcount (by omega) (by omega)
  rw [hzero, Nat.add_zero] at hused
  have hcopied := copyToDevice_eq
    ⟨buffer, { ctx.devMemArena with usedByteSize := used },
      List.replicate (pixelCount window) none, ctx.device⟩
    (rasterRead band window) (by simpa using htake) (by simp)
  rw [length_rasterRead] at hcopied
  refine ⟨⟨buffer, { ctx.devMemArena with usedByteSize := used },
    (rasterRead band window).map some, ctx.device⟩,
    ⟨⟨hlength.trans hready.buffer, hreserved, rfl⟩, hused, hdevice⟩, ?_⟩
  simp only [loadTile, runSequential, hread, allocPixels, htaken, Option.bind_eq_bind,
    Option.bind_some, Option.pure_def, hcopied]

theorem storeTile_triple (maxBytes : Nat) {Q : TileContext D E → Prop}
    (kernel : E → List (Option D) → Option (List (Option D))) (result : D → Option F)
    (data out : List D) (hsize : pixelCount window ≤ size)
    (hlength : out.length = pixelCount window)
    (hkernel : ∀ ctx, Q ctx → kernel ctx.device (data.map some) = some (out.map some)) :
    HostTriple (fun ctx => Loaded size maxBytes data ctx ∧ Q ctx)
      (storeTile kernel result window) [(window, out.map result)] (Ready size maxBytes) := by
  rintro ⟨hTileBuffer, devMemArena, dPixelBuffer, device⟩ ⟨hloaded, hdevice⟩
  have hbuffer := hloaded.buffer
  obtain rfl : dPixelBuffer = data.map some := hloaded.pixels
  obtain ⟨buffer, hback, hlength', htake⟩ := copyToHost_eq
    ⟨hTileBuffer, devMemArena, out.map some, device⟩ out rfl
    (by dsimp only at hbuffer ⊢; omega)
  have hwritten := tileData_eq ⟨buffer, { devMemArena with usedByteSize := 0 },
    out.map some, device⟩ result hlength htake
  rw [hlength] at hback
  refine ⟨⟨buffer, { devMemArena with usedByteSize := 0 }, out.map some, device⟩,
    ⟨hlength'.trans hbuffer, rfl, hloaded.reserved⟩, ?_⟩
  simp only [storeTile, runSequential, runKernel, hkernel _ hdevice, Option.bind_eq_bind,
    Option.bind_some, Option.pure_def, hback, resetArena, MemArena.reset, hwritten,
    Option.map_some]

end Triples

/-- An array can be taken from the arena while elements are still on their way to the device. -/
theorem commutes_allocDevice (sizeOf count size : Nat) (placed : E) :
    Commutes (allocDevice sizeOf count placed : Action (TileContext D E)) (copyToDevice size) := by
  intro ctx
  cases htaken : takeArray sizeOf count ctx.devMemArena <;>
    cases hcopied : memcpy size ctx.hTileBuffer ctx.dPixelBuffer <;>
    simp [allocDevice, copyToDevice, htaken, hcopied]

end TileContext

/-! ## Tiles of a list -/

/-- The tiles that a raster is cut into are not empty, and not larger than they are asked to be. -/
theorem tile_sizes {r : TiledRaster} {t : Rectangle}
    (ht : t ∈ ThermalNoise.calculateTiles r.tileWidth r.tileHeight r.width r.height) :
    (0 < t.width ∧ t.width ≤ r.tileWidth) ∧ 0 < t.height ∧ t.height ≤ r.tileHeight := by
  have hinside := (ThermalNoise.isPartition_calculateTiles r.columns.size_pos
    r.rows.size_pos).inside t ht
  obtain ⟨yIndex, -, xIndex, -, -, -, hoverlap, -⟩ := ThermalNoise.mem_calculateTiles.mp ht
  have hwidth := congrArg Rectangle.width hoverlap
  have hheight := congrArg Rectangle.height hoverlap
  simp only [ThermalNoise.getIntersection] at hwidth hheight
  simp only [Rectangle.Inside] at hinside
  omega

/-- A tile has no more pixels than the largest one. -/
theorem pixelCount_le {r : TiledRaster} {t : Rectangle}
    (ht : t ∈ ThermalNoise.calculateTiles r.tileWidth r.tileHeight r.width r.height) :
    pixelCount t ≤ (r.tileWidth * r.tileHeight).toNat := by
  obtain ⟨hwidth, hheight⟩ := tile_sizes ht
  rw [Int.toNat_mul (by omega) (by omega)]
  exact Nat.mul_le_mul (by omega) (by omega)

/-! ## Kernels over the pixels of a tile -/

/-- The order in which the threads of each launch over the pixels of a tile, or over its lines,
execute. -/
structure LaunchOrder where
  pixels : Rectangle → List (Int × Int)
  pixels_perm : ∀ window, (pixels window).Perm (tilePixels window)
  lines : Rectangle → List Int
  lines_perm : ∀ window, (lines window).Perm (intRange window.y (window.y + window.height))

namespace LaunchOrder

/-- One after the other. -/
def inOrder : LaunchOrder where
  pixels := tilePixels
  pixels_perm _ := .refl _
  lines window := intRange window.y (window.y + window.height)
  lines_perm _ := .refl _

variable (d : LaunchOrder) {window : Rectangle}

theorem mem_pixels {k : Int × Int} : k ∈ d.pixels window ↔ window.Contains k.1 k.2 :=
  (d.pixels_perm window).mem_iff.trans mem_tilePixels

theorem mem_lines {y : Int} :
    y ∈ d.lines window ↔ window.y ≤ y ∧ y < window.y + window.height :=
  (d.lines_perm window).mem_iff.trans mem_intRange

theorem nodup_pixelIndex (window : Rectangle) :
    ((d.pixels window).map (pixelIndex window)).Nodup := by
  refine List.Nodup.map_on (fun k hk k' hk' heq =>
    pixelIndex_inj (d.mem_pixels.mp hk) (d.mem_pixels.mp hk') heq) ?_
  exact (d.pixels_perm window).nodup_iff.mpr ((nodup_intRange _ _).product (nodup_intRange _ _))

/-- A launch in place computes for each pixel what its thread makes of its element. -/
theorem launchInPlace_pixels {D : Type*} {band result : RasterBand D}
    {f : Int × Int → Option D → Option (Option D)}
    (h : ∀ k : Int × Int, window.Contains k.1 k.2 → f k (some (band k)) = some (some (result k))) :
    launchInPlace (pixelIndex window) f (d.pixels window) ((rasterRead band window).map some) =
      some ((rasterRead result window).map some) := by
  obtain ⟨m, hm, hlength, hvalue, -⟩ := launchInPlace_eq (f := f)
    (fun k => some (result k)) (d.nodup_pixelIndex window)
    (m := (rasterRead band window).map some) fun k hk => by
      have hin := d.mem_pixels.mp hk
      exact ⟨some (band k), by rw [List.getElem?_map, getElem?_rasterRead band hin]; rfl, h k hin⟩
  have hcells : m = rasterRead (fun k => some (result k)) window :=
    eq_rasterRead (by simpa using hlength) fun k hk => hvalue k (d.mem_pixels.mpr hk)
  rw [hm, hcells]
  simp [rasterRead]

end LaunchOrder

end Alus.Util
