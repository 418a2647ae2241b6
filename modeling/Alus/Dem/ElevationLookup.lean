import Mathlib.Data.Rat.Floor
import Alus.Lib.Rounding
import Alus.SnapEngine.BilinearInterpolation

/-!
# Elevation lookup

Tiles of a digital elevation model are put on the device with an id that encodes their place in
the grid of the model (`srtm3_elevation_model.cc`, `copdem_cog_30m.cc`). A lookup turns a
position into four neighbouring pixels of the whole grid, finds the tile of each by its id, and
interpolates (`dem_calc.cuh`, `copdem_cog_30m_calc.cuh`).

The two models run the same lookup with their own constants. Coordinates and heights are exact
numbers, and a sample is a number or NaN. The samples of one lookup are local memory that nothing
initialises but the first of them.
-/

namespace Alus.Dem

open Alus.Lib
open Alus.SnapEngine (ResamplingIndex computeIndex computeIndex_add_half)

/-- `dem::Property`, as far as a lookup reads it. -/
structure Property (T : Type) where
  tilePixelCountInvertedX : T
  tilePixelCountInvertedY : T
  tilePixelCountX : Int
  tilePixelCountY : Int
  gridTileCountX : Int
  gridTileCountY : Int
  gridTotalWidthPixels : Int
  gridTotalHeightPixels : Int
  noDataValue : T
  tilePixelSizeDegInvertedX : T
  tilePixelSizeDegInvertedY : T
  gridMaxLat : T
  gridMaxLon : T

/-- `PointerHolder`: a tile on the device. -/
structure PointerHolder (T : Type) where
  id : Int
  x : Int
  values : List T

/-- A DEM file after formatting: where it lies and its pixels, by column and row. -/
structure DemFile (T : Type) where
  lonOrigin : T
  latOrigin : T
  pixel : Int → Int → T

/-- The two elevation models; the second with the width its tiles have in common. -/
inductive DemType where
  | srtm3
  | copdemCog30m (width : Int)
  deriving DecidableEq, Repr

section Lookup

variable {T : Type} [Field T] [LinearOrder T] [FloorRing T]

/-- The constants of `srtm3_elevation_model_constants.h`. -/
def srtm3Property : Property T where
  tilePixelCountInvertedX := 1 / 6000
  tilePixelCountInvertedY := 1 / 6000
  tilePixelCountX := 6000
  tilePixelCountY := 6000
  gridTileCountX := 72
  gridTileCountY := 24
  gridTotalWidthPixels := 72 * 6000
  gridTotalHeightPixels := 24 * 6000
  noDataValue := -32768
  tilePixelSizeDegInvertedX := 6000 / 5
  tilePixelSizeDegInvertedY := 6000 / 5
  gridMaxLat := 60
  gridMaxLon := 180

/-- The property `LoadTilesImpl` makes of a tile of this width, whose pixel size is `1 / width`. -/
def copdemProperty (width : Int) : Property T where
  tilePixelCountInvertedX := 1 / width
  tilePixelCountInvertedY := 1 / 3600
  tilePixelCountX := width
  tilePixelCountY := 3600
  gridTileCountX := 360
  gridTileCountY := 180
  gridTotalWidthPixels := width * 360
  gridTotalHeightPixels := 3600 * 180
  noDataValue := 0
  tilePixelSizeDegInvertedX := width
  tilePixelSizeDegInvertedY := 3600
  gridMaxLat := 90
  gridMaxLon := 180

/-! ## Loading -/

/-- The id in `HostToDeviceThread`. -/
def srtm3LoadId (file : DemFile T) : Int :=
  let lon := stdRound file.lonOrigin
  let lat := stdRound file.latOrigin
  ((180 + lon).tdiv 5 + 1) * 100 + ((60 - lat).tdiv 5 + 1)

/-- `ComputeId`. -/
def computeId (lonOrigin latOrigin : T) : Int :=
  toInt ((180 + lonOrigin) / 1 * 1000 + (90 - latOrigin) / 1)

/-- The id in `TransferToDeviceImpl`. -/
def copdemLoadId (file : DemFile T) : Int :=
  let lon := stdRound file.lonOrigin
  let lat := stdRound (file.latOrigin - 1)
  computeId (lon : T) (lat : T)

/-- A file on the device, as a tile of this size. -/
def toDevice (loadId : DemFile T → Int) (prop : Property T) (file : DemFile T) :
    PointerHolder T where
  id := loadId file
  x := prop.tilePixelCountX
  values := rowMajor prop.tilePixelCountX prop.tilePixelCountY file.pixel

/-! ## Looking up -/

/-- One sample, in the loops of `GetSamples`: the new content of its memory, and whether it is
valid. -/
def getSample (tileId : Int → Int → Int) (tiles : List (PointerHolder T)) (xSize : Int)
    (prop : Property T) (x y : Int) (old : Option T) : Outcome (Option T × Bool) :=
  let tileYIndex := toInt ((y : T) * prop.tilePixelCountInvertedY)
  let pixelY := y - tileYIndex * prop.tilePixelCountY
  let tileXIndex := toInt ((x : T) * prop.tilePixelCountInvertedX)
  if tileXIndex > prop.gridTileCountX ∨ tileXIndex < 0 ∨ tileYIndex > prop.gridTileCountY ∨
      tileYIndex < 0 then
    return (none, false)
  else do
    let pixelX := x - tileXIndex * prop.tilePixelCountX
    let sample ←
      match tiles.find? fun tile => tile.id = tileId tileXIndex tileYIndex with
      | some tile => do
        let value ← vectorIndex tile.values (pixelX + xSize * pixelY)
        Outcome.ok (some value)
      | none => Outcome.ok old
    if sample = some prop.noDataValue then return (none, false) else return (sample, true)

/-- `GetSamples`, on the memory of the four samples; `rowLength` is how it gets its `xSize`. -/
def getSamples (tileId : Int → Int → Int) (tiles : List (PointerHolder T))
    (rowLength : Outcome Int) (prop : Property T) (index : ResamplingIndex T)
    (memory : Corners (Option T)) : Outcome (Corners (Option T) × Bool) := do
  let xSize ← rowLength
  let (v00, valid00) ←
    getSample tileId tiles xSize prop index.i.first index.j.first memory.v00
  let (v01, valid01) ←
    getSample tileId tiles xSize prop index.i.second index.j.first memory.v01
  let (v10, valid10) ←
    getSample tileId tiles xSize prop index.i.first index.j.second memory.v10
  let (v11, valid11) ←
    getSample tileId tiles xSize prop index.i.second index.j.second memory.v11
  return (⟨v00, v01, v10, v11⟩, valid00 && valid01 && valid10 && valid11)

/-- The weighted sum, NaN where a sample is. -/
def blendSamples (c : Corners (Option T)) (ki kj : T) : Option T :=
  match c with
  | ⟨some v00, some v01, some v10, some v11⟩ => some (Corners.blend ⟨v00, v01, v10, v11⟩ ki kj)
  | _ => none

/-- `Resample`: the first sample is set to zero, the others are what the memory held. -/
def resample (tileId : Int → Int → Int) (tiles : List (PointerHolder T))
    (rowLength : Outcome Int) (prop : Property T) (index : ResamplingIndex T)
    (memory : Corners (Option T)) : Outcome (Option T) := do
  let (samples, allValid) ←
    getSamples tileId tiles rowLength prop index { memory with v00 := some 0 }
  if allValid then return blendSamples samples index.i.weight index.j.weight
  else return samples.v00

/-- The body that both lookups share. -/
def lookUp (tileId : Int → Int → Int) (tiles : List (PointerHolder T)) (rowLength : Outcome Int)
    (prop : Property T) (memory : Corners (Option T)) (lat lon : T) : Outcome T := do
  let lon := if lon > 180 then lon - 360 else lon
  let pixelY := (prop.gridMaxLat - lat) * prop.tilePixelSizeDegInvertedY
  if pixelY < 0 then
    return prop.noDataValue
  else do
    let pixelX := (lon + prop.gridMaxLon) * prop.tilePixelSizeDegInvertedX
    let index := computeIndex (pixelX + 1 / 2) (pixelY + 1 / 2) prop.gridTotalWidthPixels
      prop.gridTotalHeightPixels
    let elevation ← resample tileId tiles rowLength prop index memory
    match elevation with
    | none => return prop.noDataValue
    | some value => return value

/-- `srtm_id` of a lookup. -/
def srtm3LookupId (tileXIndex tileYIndex : Int) : Int :=
  (tileXIndex + 1) * 100 + (tileYIndex + 1)

/-- `tile_id` of a lookup. -/
def copdemLookupId (tileXIndex tileYIndex : Int) : Int :=
  tileXIndex * 1000 + tileYIndex + 1

/-- `GetElevation`, whose row length is that of the first tile. -/
def getElevation (tiles : List (PointerHolder T)) (prop : Property T)
    (memory : Corners (Option T)) (lat lon : T) : Outcome T :=
  let rowLength := do
    let first ← vectorIndex tiles 0
    return first.x
  lookUp srtm3LookupId tiles rowLength prop memory lat lon

/-- `CopDemCog30mGetElevation`. -/
def copDemCog30mGetElevation (tiles : List (PointerHolder T)) (prop : Property T)
    (memory : Corners (Option T)) (lat lon : T) : Outcome T :=
  lookUp copdemLookupId tiles (.ok prop.tilePixelCountX) prop memory lat lon

namespace DemType

/-- The members of the two families, by type. -/
def property : DemType → Property T
  | srtm3 => srtm3Property
  | copdemCog30m width => copdemProperty width

def loadId : DemType → DemFile T → Int
  | srtm3 => srtm3LoadId
  | copdemCog30m _ => copdemLoadId

def lookupId : DemType → Int → Int → Int
  | srtm3 => srtm3LookupId
  | copdemCog30m _ => copdemLookupId

/-- The lookup on the files, after they are on the device. -/
def elevation (type : DemType) (files : List (DemFile T)) (memory : Corners (Option T))
    (lat lon : T) : Outcome T :=
  let tiles := files.map (toDevice type.loadId type.property)
  match type with
  | srtm3 => getElevation tiles srtm3Property memory lat lon
  | copdemCog30m width => copDemCog30mGetElevation tiles (copdemProperty width) memory lat lon

/-! ## Tiles of the grid -/

/-- `DEGREE_RES` and `RASTER_DEG_RES_X`: the degrees that a tile covers. -/
def tileDegrees : DemType → Int
  | srtm3 => 5
  | copdemCog30m _ => 1

/-- The widths there are. -/
def Allowed : DemType → Prop
  | srtm3 => True
  | copdemCog30m width => 0 < width

/-- The file lies at `(tx, ty)`: its origin is the upper left corner of that tile, give or take
less than half a degree. -/
def LiesAt (type : DemType) (file : DemFile T) (tx ty : Int) : Prop :=
  |file.lonOrigin - (type.tileDegrees * tx - 180 : Int)| < 1 / 2 ∧
    |file.latOrigin - (type.property.gridMaxLat - (type.tileDegrees * ty : Int))| < 1 / 2

instance (type : DemType) (file : DemFile T) (tx ty : Int) : Decidable (type.LiesAt file tx ty) :=
  inferInstanceAs (Decidable (_ ∧ _))

end DemType

/-- The grid has a tile at `(tx, ty)`. -/
def Property.HasTile (prop : Property T) (tx ty : Int) : Prop :=
  0 ≤ tx ∧ tx < prop.gridTileCountX ∧ 0 ≤ ty ∧ ty < prop.gridTileCountY

instance (prop : Property T) (tx ty : Int) : Decidable (prop.HasTile tx ty) :=
  inferInstanceAs (Decidable (_ ∧ _))

/-- The counts of a property fit together. -/
structure Property.Coherent (prop : Property T) : Prop where
  x_pos : 0 < prop.tilePixelCountX
  y_pos : 0 < prop.tilePixelCountY
  tiles_x_pos : 0 < prop.gridTileCountX
  tiles_y_pos : 0 < prop.gridTileCountY
  inverted_x : prop.tilePixelCountInvertedX = 1 / (prop.tilePixelCountX : T)
  inverted_y : prop.tilePixelCountInvertedY = 1 / (prop.tilePixelCountY : T)
  width : prop.gridTotalWidthPixels = prop.gridTileCountX * prop.tilePixelCountX
  height : prop.gridTotalHeightPixels = prop.gridTileCountY * prop.tilePixelCountY

namespace DemType

omit [LinearOrder T] [FloorRing T] in
theorem property_coherent {type : DemType} (h : type.Allowed) :
    (type.property (T := T)).Coherent := by
  cases type with
  | srtm3 =>
    have hcount : (0 : Int) < 6000 := by decide
    have htiles : (0 : Int) < 72 ∧ (0 : Int) < 24 := by decide
    exact ⟨hcount, hcount, htiles.1, htiles.2, by simp [property, srtm3Property],
      by simp [property, srtm3Property], rfl, rfl⟩
  | copdemCog30m width =>
    have hcount : (0 : Int) < 3600 := by decide
    have htiles : (0 : Int) < 360 ∧ (0 : Int) < 180 := by decide
    exact ⟨h, hcount, htiles.1, htiles.2, rfl, by simp [property, copdemProperty],
      Int.mul_comm width 360, rfl⟩

variable [IsStrictOrderedRing T]

/-! ## Ids -/

/-- The id a file is loaded under is the id its tile is looked up by. -/
theorem loadId_eq {type : DemType} {file : DemFile T} {tx ty : Int}
    (hgrid : (type.property (T := T)).HasTile tx ty) (h : type.LiesAt file tx ty) :
    type.loadId file = type.lookupId tx ty := by
  have hlon := stdRound_of_abs_lt h.1
  cases type with
  | srtm3 =>
    have hlat : stdRound file.latOrigin = 60 - 5 * ty := by
      apply stdRound_of_abs_lt
      have := h.2
      simpa [property, srtm3Property, tileDegrees] using this
    show ((180 + stdRound file.lonOrigin).tdiv 5 + 1) * 100 +
      ((60 - stdRound file.latOrigin).tdiv 5 + 1) = (tx + 1) * 100 + (ty + 1)
    rw [hlon, hlat, show tileDegrees srtm3 = 5 from rfl,
      show 180 + (5 * tx - 180) = 5 * tx by omega, show 60 - (60 - 5 * ty) = 5 * ty by omega,
      Int.mul_tdiv_cancel_left tx (by decide), Int.mul_tdiv_cancel_left ty (by decide)]
  | copdemCog30m width =>
    have hlat : stdRound (file.latOrigin - 1) = 89 - ty := by
      apply stdRound_of_abs_lt
      have := h.2
      rw [show file.latOrigin - 1 - ((89 - ty : Int) : T) = file.latOrigin - (90 - ty) by
        push_cast
        ring]
      simpa [property, copdemProperty, tileDegrees] using this
    show computeId ((stdRound file.lonOrigin : Int) : T)
      ((stdRound (file.latOrigin - 1) : Int) : T) = tx * 1000 + ty + 1
    rw [hlon, hlat, computeId,
      show (180 + ((tileDegrees (copdemCog30m width) * tx - 180 : Int) : T)) / 1 * 1000 +
        (90 - ((89 - ty : Int) : T)) / 1 = ((tx * 1000 + ty + 1 : Int) : T) by
        push_cast [tileDegrees]
        ring]
    exact toInt_intCast _

omit [LinearOrder T] [FloorRing T] [IsStrictOrderedRing T] in
/-- Tiles of the grid have ids of their own. -/
theorem lookupId_injective {type : DemType} {tx ty tx' ty' : Int}
    (h : (type.property (T := T)).HasTile tx ty) (h' : (type.property (T := T)).HasTile tx' ty')
    (hid : type.lookupId tx ty = type.lookupId tx' ty') : tx = tx' ∧ ty = ty' := by
  obtain ⟨htx, htx_lt, hty, hty_lt⟩ := h
  obtain ⟨htx', htx'_lt, hty', hty'_lt⟩ := h'
  cases type with
  | srtm3 =>
    have hcount : (srtm3.property (T := T)).gridTileCountY = 24 := rfl
    have hid : (tx + 1) * 100 + (ty + 1) = (tx' + 1) * 100 + (ty' + 1) := hid
    omega
  | copdemCog30m width =>
    have hcount : ((copdemCog30m width).property (T := T)).gridTileCountY = 180 := rfl
    have hid : tx * 1000 + ty + 1 = tx' * 1000 + ty' + 1 := hid
    omega

/-! ## The loaded pixels -/

/-- Every file lies at a tile of the grid. -/
def Placed (type : DemType) (files : List (DemFile T)) : Prop :=
  ∀ file ∈ files, ∃ tx ty, (type.property (T := T)).HasTile tx ty ∧ type.LiesAt file tx ty

/-- The loaded file of a tile. -/
def fileAt (type : DemType) (files : List (DemFile T)) (tx ty : Int) : Option (DemFile T) :=
  files.find? fun file => type.LiesAt file tx ty

/-- The pixel of the whole grid at `(x, y)`, if its tile is loaded. -/
def loadedPixel (type : DemType) (files : List (DemFile T)) (x y : Int) : Option T :=
  let prop : Property T := type.property
  (type.fileAt files (x / prop.tilePixelCountX) (y / prop.tilePixelCountY)).map fun file =>
    file.pixel (x % prop.tilePixelCountX) (y % prop.tilePixelCountY)

/-- A lookup by id finds the file of the tile. -/
theorem find?_toDevice {type : DemType} {files : List (DemFile T)} (hplaced : type.Placed files)
    {tx ty : Int} (hgrid : (type.property (T := T)).HasTile tx ty) :
    (files.map (toDevice type.loadId type.property)).find? (fun tile =>
        tile.id = type.lookupId tx ty) =
      (type.fileAt files tx ty).map (toDevice type.loadId type.property) := by
  rw [List.find?_map]
  refine congrArg (Option.map _) ?_
  -- the id and the place single out the same files
  induction files with
  | nil => rfl
  | cons file files ih =>
    have hfile : type.loadId file = type.lookupId tx ty ↔ type.LiesAt file tx ty := by
      constructor
      · intro hid
        obtain ⟨tx', ty', hgrid', hlies⟩ := hplaced file List.mem_cons_self
        rw [loadId_eq hgrid' hlies] at hid
        have htile := lookupId_injective hgrid' hgrid hid
        rwa [htile.1, htile.2] at hlies
      · exact loadId_eq hgrid
    have htail := ih fun file' hfile' => hplaced file' (List.mem_cons_of_mem file hfile')
    unfold fileAt at htail ⊢
    rw [List.find?_cons, List.find?_cons, htail]
    simp only [Function.comp_apply, toDevice, hfile]

end DemType

/-- What is left of a sample: its memory, and whether it is valid. -/
def readSample (noDataValue : T) (old pixel : Option T) : Option T × Bool :=
  let sample := pixel.or old
  if sample = some noDataValue then (none, false) else (sample, true)

/-- The value of a lookup, NaN as `none`. -/
def combine (noDataValue : T) (memory pixels : Corners (Option T)) (ki kj : T) : Option T :=
  let s00 := readSample noDataValue (some 0) pixels.v00
  let s01 := readSample noDataValue memory.v01 pixels.v01
  let s10 := readSample noDataValue memory.v10 pixels.v10
  let s11 := readSample noDataValue memory.v11 pixels.v11
  if s00.2 && s01.2 && s10.2 && s11.2 then blendSamples ⟨s00.1, s01.1, s10.1, s11.1⟩ ki kj
  else s00.1

namespace Property

/-- The pixel `(x, y)` is on the grid. -/
def HasPixel (prop : Property T) (x y : Int) : Prop :=
  0 ≤ x ∧ x < prop.gridTotalWidthPixels ∧ 0 ≤ y ∧ y < prop.gridTotalHeightPixels

omit [LinearOrder T] [FloorRing T] in
theorem Coherent.hasTile {prop : Property T} (h : prop.Coherent) {x y : Int}
    (hxy : prop.HasPixel x y) :
    prop.HasTile (x / prop.tilePixelCountX) (y / prop.tilePixelCountY) := by
  obtain ⟨hx, hx_lt, hy, hy_lt⟩ := hxy
  refine ⟨Int.ediv_nonneg hx h.x_pos.le, ?_, Int.ediv_nonneg hy h.y_pos.le, ?_⟩
  · exact Int.ediv_lt_of_lt_mul h.x_pos (h.width ▸ hx_lt)
  · exact Int.ediv_lt_of_lt_mul h.y_pos (h.height ▸ hy_lt)

variable [IsStrictOrderedRing T]

/-- A sample on the grid comes from the tile that its id finds. -/
theorem Coherent.getSample_eq {prop : Property T} (h : prop.Coherent) {x y : Int}
    (hxy : prop.HasPixel x y) {tileId : Int → Int → Int} {tiles : List (PointerHolder T)}
    {loadId : DemFile T → Int} {file : Option (DemFile T)}
    (hfind : tiles.find? (fun tile =>
        tile.id = tileId (x / prop.tilePixelCountX) (y / prop.tilePixelCountY)) =
      file.map (toDevice loadId prop)) (old : Option T) :
    getSample tileId tiles prop.tilePixelCountX prop x y old =
      .ok (readSample prop.noDataValue old
        (file.map fun f => f.pixel (x % prop.tilePixelCountX) (y % prop.tilePixelCountY))) := by
  -- what is left of the pixel is its place in the tile
  have hpixelX : x - x / prop.tilePixelCountX * prop.tilePixelCountX =
      x % prop.tilePixelCountX := by
    rw [Int.emod_def, Int.mul_comm]
  have hpixelY : y - y / prop.tilePixelCountY * prop.tilePixelCountY =
      y % prop.tilePixelCountY := by
    rw [Int.emod_def, Int.mul_comm]
  obtain ⟨htx, htx_lt, hty, hty_lt⟩ := h.hasTile hxy
  unfold getSample
  rw [h.inverted_x, h.inverted_y, toInt_mul_inverse hxy.1 h.x_pos,
    toInt_mul_inverse hxy.2.2.1 h.y_pos]
  simp only [hpixelX, hpixelY]
  rw [if_neg (by omega), hfind]
  unfold readSample
  -- without a tile the sample keeps the value it had
  cases file with
  | none =>
    simp only [Option.map_none, Option.none_or, Outcome.ok_bind, Outcome.pure_eq]
    exact (apply_ite Outcome.ok _ _ _).symm
  | some file =>
    have hread : vectorIndex (toDevice loadId prop file).values
        (x % prop.tilePixelCountX + prop.tilePixelCountX * (y % prop.tilePixelCountY)) =
        .ok (file.pixel (x % prop.tilePixelCountX) (y % prop.tilePixelCountY)) := by
      rw [Int.add_comm]
      exact vectorIndex_rowMajor (Int.emod_nonneg x h.x_pos.ne') (Int.emod_lt_of_pos x h.x_pos)
        (Int.emod_nonneg y h.y_pos.ne') (Int.emod_lt_of_pos y h.y_pos) file.pixel
    simp only [Option.map_some, Option.some_or, hread, Outcome.ok_bind, Outcome.pure_eq]
    exact (apply_ite Outcome.ok _ _ _).symm

/-! ## The four neighbours -/

/-- The column and the row of a position, counted from the centres of the pixels. -/
def pixelX (prop : Property T) (lon : T) : T :=
  ((if lon > 180 then lon - 360 else lon) + prop.gridMaxLon) * prop.tilePixelSizeDegInvertedX

def pixelY (prop : Property T) (lat : T) : T :=
  (prop.gridMaxLat - lat) * prop.tilePixelSizeDegInvertedY

/-- The pixels around a position, the grid's edge repeated. -/
def neighbours (prop : Property T) (pixel : Int → Int → Option T) (lat lon : T) :
    Corners (Option T) :=
  let column := clampTo 0 (prop.gridTotalWidthPixels - 1)
  let row := clampTo 0 (prop.gridTotalHeightPixels - 1)
  let x := ⌊prop.pixelX lon⌋
  let y := ⌊prop.pixelY lat⌋
  ⟨pixel (column x) (row y), pixel (column (x + 1)) (row y), pixel (column x) (row (y + 1)),
    pixel (column (x + 1)) (row (y + 1))⟩

omit [LinearOrder T] [FloorRing T] [IsStrictOrderedRing T] in
theorem Coherent.hasPixel_clampTo {prop : Property T} (h : prop.Coherent) (x y : Int) :
    prop.HasPixel (clampTo 0 (prop.gridTotalWidthPixels - 1) x)
      (clampTo 0 (prop.gridTotalHeightPixels - 1) y) := by
  have hwidth : 0 < prop.gridTotalWidthPixels :=
    h.width ▸ Int.mul_pos h.tiles_x_pos h.x_pos
  have hheight : 0 < prop.gridTotalHeightPixels :=
    h.height ▸ Int.mul_pos h.tiles_y_pos h.y_pos
  have hx := clampTo_mem (show 0 ≤ prop.gridTotalWidthPixels - 1 by omega) x
  have hy := clampTo_mem (show 0 ≤ prop.gridTotalHeightPixels - 1 by omega) y
  exact ⟨hx.1, by omega, hy.1, by omega⟩

/-- A lookup on or below the top edge of the grid, when each sample reads `pixel`. -/
theorem Coherent.lookUp_eq {prop : Property T} (h : prop.Coherent) {tileId : Int → Int → Int}
    {tiles : List (PointerHolder T)} {pixel : Int → Int → Option T}
    (hsample : ∀ x y, prop.HasPixel x y → ∀ old,
      getSample tileId tiles prop.tilePixelCountX prop x y old =
        .ok (readSample prop.noDataValue old (pixel x y)))
    {lat : T} (lon : T) (hlat : 0 ≤ prop.pixelY lat) (memory : Corners (Option T)) :
    lookUp tileId tiles (.ok prop.tilePixelCountX) prop memory lat lon =
      .ok ((combine prop.noDataValue memory (prop.neighbours pixel lat lon)
        (Int.fract (prop.pixelX lon)) (Int.fract (prop.pixelY lat))).getD prop.noDataValue) := by
  have hresample : resample tileId tiles (.ok prop.tilePixelCountX) prop
      (computeIndex (prop.pixelX lon + 1 / 2) (prop.pixelY lat + 1 / 2) prop.gridTotalWidthPixels
        prop.gridTotalHeightPixels) memory =
      .ok (combine prop.noDataValue memory (prop.neighbours pixel lat lon)
        (Int.fract (prop.pixelX lon)) (Int.fract (prop.pixelY lat))) := by
    have hat := fun x y => hsample _ _ (h.hasPixel_clampTo x y)
    unfold resample getSamples
    simp only [computeIndex_add_half, hat, Outcome.ok_bind, Outcome.pure_eq]
    exact (apply_ite Outcome.ok _ _ _).symm
  unfold lookUp
  refine (if_neg (not_lt.mpr hlat)).trans ?_
  refine (congrArg (· >>= _) hresample).trans ?_
  rw [Outcome.ok_bind]
  cases combine prop.noDataValue memory (prop.neighbours pixel lat lon)
    (Int.fract (prop.pixelX lon)) (Int.fract (prop.pixelY lat)) <;> rfl

end Property

/-! ## Missing tiles -/

section Combine

variable {noDataValue : T} {pixels : Corners (Option T)} {ki kj : T}

/-- The value does not depend on the memory and is the no-data value, as far as missing tiles
go: none is missing, or the first pixel is itself no data, or the zero that stands for the first
pixel comes out as the no-data value. -/
def MissingHandled (noDataValue : T) (pixels : Corners (Option T)) (ki kj : T) : Prop :=
  pixels.Forall (· ≠ none) ∨ pixels.v00 = some noDataValue ∨
    pixels.v00 = none ∧ (noDataValue = 0 ∨ ∃ v01 v10 v11 : T,
      pixels.v01 = some v01 ∧ pixels.v10 = some v10 ∧ pixels.v11 = some v11 ∧
      v01 ≠ noDataValue ∧ v10 ≠ noDataValue ∧ v11 ≠ noDataValue ∧
      Corners.blend ⟨0, v01, v10, v11⟩ ki kj = noDataValue)

omit [Field T] [FloorRing T] in
theorem readSample_of_ne {v : T} (h : v ≠ noDataValue) (old : Option T) :
    readSample noDataValue old (some v) = (some v, true) :=
  if_neg fun heq => h (Option.some.inj heq)

omit [Field T] [FloorRing T] in
theorem readSample_noDataValue (old : Option T) :
    readSample noDataValue old (some noDataValue) = (none, false) := if_pos rfl

omit [Field T] [FloorRing T] in
/-- A valid pixel, or no sample at all while the memory holds the no-data value. -/
theorem valid_or_readSample (noDataValue : T) (pixel : Option T) :
    (∃ v, pixel = some v ∧ v ≠ noDataValue) ∨
      readSample noDataValue (some noDataValue) pixel = (none, false) := by
  cases pixel with
  | none => exact .inr (if_pos rfl)
  | some v =>
    by_cases hv : v = noDataValue
    · exact .inr (hv ▸ readSample_noDataValue _)
    · exact .inl ⟨v, rfl, hv⟩

omit [FloorRing T] in
theorem combine_of_valid {c : Corners T} (h : c.Forall (· ≠ noDataValue))
    (memory : Corners (Option T)) :
    combine noDataValue memory (c.map some) ki kj = some (c.blend ki kj) := by
  obtain ⟨h00, h01, h10, h11⟩ := h
  unfold combine Corners.map
  simp only [readSample_of_ne h00, readSample_of_ne h01, readSample_of_ne h10,
    readSample_of_ne h11]
  rfl

omit [FloorRing T] in
/-- Memory full of no-data values spoils every missing sample but the first. -/
theorem combine_noDataMemory (noDataValue : T) (pixels : Corners (Option T)) (ki kj : T) :
    (∃ v01 v10 v11 : T, pixels.v01 = some v01 ∧ pixels.v10 = some v10 ∧ pixels.v11 = some v11 ∧
      v01 ≠ noDataValue ∧ v10 ≠ noDataValue ∧ v11 ≠ noDataValue) ∨
    combine noDataValue ⟨none, some noDataValue, some noDataValue, some noDataValue⟩ pixels ki kj =
      (readSample noDataValue (some 0) pixels.v00).1 := by
  unfold combine
  rcases valid_or_readSample noDataValue pixels.v01 with ⟨v01, h01, hv01⟩ | h01
  · rcases valid_or_readSample noDataValue pixels.v10 with ⟨v10, h10, hv10⟩ | h10
    · rcases valid_or_readSample noDataValue pixels.v11 with ⟨v11, h11, hv11⟩ | h11
      · exact .inl ⟨v01, v10, v11, h01, h10, h11, hv01, hv10, hv11⟩
      · exact .inr (by simp [h11])
    · exact .inr (by simp [h10])
  · exact .inr (by simp [h01])

omit [FloorRing T] in
/-- The value with such memory, when a tile is missing, is the no-data value only if
`MissingHandled`. -/
theorem missingHandled_of_combine (hmissing : ¬ pixels.Forall (· ≠ none))
    (h : ∀ memory, (combine noDataValue memory pixels ki kj).getD noDataValue = noDataValue) :
    MissingHandled noDataValue pixels ki kj := by
  have hmemory := h ⟨none, some noDataValue, some noDataValue, some noDataValue⟩
  have hnoData := combine_noDataMemory noDataValue pixels ki kj
  cases h00 : pixels.v00 with
  | some v00 =>
    refine .inr (.inl ?_)
    by_cases hv : v00 = noDataValue
    · exact h00.trans (congrArg some hv)
    · rcases hnoData with ⟨v01, v10, v11, h01, h10, h11, -⟩ | hfirst
      · refine absurd ?_ hmissing
        exact ⟨by simp [h00], by simp [h01], by simp [h10], by simp [h11]⟩
      -- the first sample alone is the value
      · rw [hfirst, h00, readSample_of_ne hv] at hmemory
        exact absurd hmemory hv
  | none =>
    refine .inr (.inr ⟨h00, ?_⟩)
    by_cases hzero : noDataValue = 0
    · exact .inl hzero
    · have hread : readSample noDataValue (some 0) pixels.v00 = (some 0, true) := by
        rw [h00]
        exact if_neg fun heq => hzero (Option.some.inj heq).symm
      rcases hnoData with ⟨v01, v10, v11, h01, h10, h11, hv01, hv10, hv11⟩ | hfirst
      · refine .inr ⟨v01, v10, v11, h01, h10, h11, hv01, hv10, hv11, ?_⟩
        simpa [combine, hread, h01, h10, h11, readSample_of_ne hv01, readSample_of_ne hv10,
          readSample_of_ne hv11, blendSamples] using hmemory
      -- the zero put into the first sample is the value
      · rw [hfirst, hread] at hmemory
        exact absurd hmemory.symm hzero

omit [FloorRing T] in
theorem combine_of_missingHandled (hmissing : ¬ pixels.Forall (· ≠ none))
    (h : MissingHandled noDataValue pixels ki kj) (memory : Corners (Option T)) :
    (combine noDataValue memory pixels ki kj).getD noDataValue = noDataValue := by
  rcases h with hloaded | h00 | ⟨h00, hzero⟩
  · exact absurd hloaded hmissing
  · simp [combine, h00, readSample_noDataValue]
  · have hread : readSample noDataValue (some 0) pixels.v00 =
        if noDataValue = 0 then (none, false) else (some 0, true) := by
      rw [h00]
      simp [readSample, eq_comm]
    by_cases hnd : noDataValue = 0
    · rw [if_pos hnd] at hread
      simp [combine, hread]
    · rw [if_neg hnd] at hread
      obtain ⟨v01, v10, v11, h01, h10, h11, hv01, hv10, hv11, hblend⟩ := hzero.resolve_left hnd
      simp [combine, hread, h01, h10, h11, readSample_of_ne hv01, readSample_of_ne hv10,
        readSample_of_ne hv11, blendSamples, hblend]

end Combine

/-! ## The elevation -/

namespace DemType

/-- The pixels around a position, `none` where the tile is not loaded. -/
def neighbours (type : DemType) (files : List (DemFile T)) (lat lon : T) : Corners (Option T) :=
  Property.neighbours type.property (type.loadedPixel files) lat lon

/-- A lookup returns the interpolation of the four neighbours, if they are loaded and valid, and
the no-data value if one is not loaded, whatever is in the memory of the samples. -/
structure LookupCorrect (type : DemType) (files : List (DemFile T)) (lat lon : T) : Prop where
  ids_agree : ∀ file ∈ files, ∀ tx ty, (type.property (T := T)).HasTile tx ty →
    type.LiesAt file tx ty → type.loadId file = type.lookupId tx ty
  ids_distinct : ∀ tx ty tx' ty', (type.property (T := T)).HasTile tx ty →
    (type.property (T := T)).HasTile tx' ty' → type.lookupId tx ty = type.lookupId tx' ty' →
      tx = tx' ∧ ty = ty'
  interpolates : ∀ c : Corners T, 0 ≤ type.property.pixelY lat →
    type.neighbours files lat lon = c.map some → c.Forall (· ≠ type.property.noDataValue) →
      ∀ memory, type.elevation files memory lat lon =
        .ok (c.blend (Int.fract (type.property.pixelX lon)) (Int.fract (type.property.pixelY lat)))
  reports_missing : ¬ (type.neighbours files lat lon).Forall (· ≠ none) →
    ∀ memory, type.elevation files memory lat lon = .ok type.property.noDataValue

theorem elevation_above (type : DemType) (files : List (DemFile T)) {lat : T} (lon : T)
    (h : type.property.pixelY lat < 0) (memory : Corners (Option T)) :
    type.elevation files memory lat lon = .ok type.property.noDataValue := by
  cases type with
  | srtm3 => exact if_pos h
  | copdemCog30m width => exact if_pos h

variable [IsStrictOrderedRing T]

theorem elevation_eq {type : DemType} (hallowed : type.Allowed) {files : List (DemFile T)}
    (hplaced : type.Placed files) (hfiles : type = srtm3 → files ≠ []) {lat lon : T}
    (hlat : 0 ≤ type.property.pixelY lat) (memory : Corners (Option T)) :
    type.elevation files memory lat lon =
      .ok ((combine type.property.noDataValue memory (type.neighbours files lat lon)
        (Int.fract (type.property.pixelX lon)) (Int.fract (type.property.pixelY lat))).getD
          type.property.noDataValue) := by
  have hprop : (type.property (T := T)).Coherent := property_coherent hallowed
  have hlookUp := hprop.lookUp_eq (fun x y hxy old =>
    hprop.getSample_eq hxy (find?_toDevice hplaced (hprop.hasTile hxy)) old) lon hlat memory
  cases type with
  | srtm3 =>
    -- the first tile is as wide as all of them
    cases files with
    | nil => exact absurd rfl (hfiles rfl)
    | cons file files => exact hlookUp
  | copdemCog30m width => exact hlookUp

omit [IsStrictOrderedRing T] in
/-- Without tiles there is no first one to read the row length from. -/
theorem elevation_nil {lat lon : T} (hlat : 0 ≤ (srtm3.property (T := T)).pixelY lat)
    (memory : Corners (Option T)) : srtm3.elevation [] memory lat lon = .undefined :=
  if_neg (not_lt.mpr hlat)

theorem not_missingHandled_nil {lat lon ki kj : T} :
    ¬ MissingHandled (srtm3.property (T := T)).noDataValue (srtm3.neighbours [] lat lon) ki kj := by
  rintro (hloaded | h00 | ⟨-, hzero | ⟨v01, -, -, h01, -⟩⟩)
  · exact hloaded.1 rfl
  · exact absurd h00.symm (Option.some_ne_none _)
  · have hneg : (-32768 : T) < 0 := by norm_num
    exact absurd hzero hneg.ne
  · exact absurd h01.symm (Option.some_ne_none _)

/-- The lookup is correct exactly where the position is above the grid, or a missing tile is
handled. -/
theorem lookupCorrect_iff {type : DemType} (hallowed : type.Allowed) {files : List (DemFile T)}
    (hplaced : type.Placed files) (lat lon : T) :
    type.LookupCorrect files lat lon ↔
      type.property.pixelY lat < 0 ∨
        MissingHandled type.property.noDataValue (type.neighbours files lat lon)
          (Int.fract (type.property.pixelX lon)) (Int.fract (type.property.pixelY lat)) := by
  constructor
  · intro hcorrect
    refine (lt_or_ge (type.property.pixelY lat) 0).imp_right fun hlat => ?_
    by_cases hmissing : (type.neighbours files lat lon).Forall (· ≠ none)
    · exact .inl hmissing
    · refine missingHandled_of_combine hmissing fun memory => ?_
      have hvalue := hcorrect.reports_missing hmissing memory
      -- without tiles there is no row length, and the lookup is undefined
      have hfiles : type = srtm3 → files ≠ [] := by
        intro htype hnil
        rw [htype, hnil, elevation_nil (htype ▸ hlat)] at hvalue
        cases hvalue
      rw [elevation_eq hallowed hplaced hfiles hlat] at hvalue
      exact Outcome.ok.inj hvalue
  · intro hcondition
    refine ⟨fun file _ tx ty => loadId_eq, fun tx ty tx' ty' => lookupId_injective, ?_, ?_⟩
    · intro c hlat hloaded hvalid memory
      have hfiles : type = srtm3 → files ≠ [] := by
        rintro - rfl
        exact absurd (congrArg Corners.v00 hloaded) (Option.some_ne_none _).symm
      rw [elevation_eq hallowed hplaced hfiles hlat, hloaded, combine_of_valid hvalid]
      rfl
    · intro hmissing memory
      rcases lt_or_ge (type.property.pixelY lat) 0 with hlat | hlat
      · exact elevation_above type files lon hlat memory
      · have hhandled := hcondition.resolve_left (not_lt.mpr hlat)
        have hfiles : type = srtm3 → files ≠ [] := by
          rintro rfl rfl
          exact not_missingHandled_nil hhandled
        rw [elevation_eq hallowed hplaced hfiles hlat,
          combine_of_missingHandled hmissing hhandled]

end DemType

end Lookup

namespace DemType

/-- The tile `srtm_01_01`, at a height of 100 everywhere. -/
def flatTile : DemFile ℚ where
  lonOrigin := -180
  latOrigin := 60
  pixel := fun _ _ => 100

theorem placed_flatTile : srtm3.Placed [flatTile] := by
  intro file hfile
  rw [List.mem_singleton.mp hfile]
  exact ⟨0, 0, by decide, by decide +kernel⟩

theorem allowed_srtm3 : srtm3.Allowed := trivial

/-- In the middle of the tile all neighbours are loaded. -/
theorem lookupCorrect_flatTile : srtm3.LookupCorrect [flatTile] (115 / 2) (-355 / 2) :=
  (lookupCorrect_iff allowed_srtm3 placed_flatTile (115 / 2) (-355 / 2)).mpr
    (.inr (.inl (by decide +kernel)))

/-- Half a pixel before the right edge of the only tile, the two neighbours beyond it are
missing, and the lookup returns the height of the first. -/
theorem not_lookupCorrect_edge :
    srtm3.Placed [flatTile] ∧
      ¬ srtm3.LookupCorrect [flatTile] (115 / 2) (-175 - 1 / 2400) := by
  refine ⟨placed_flatTile, fun hcorrect => ?_⟩
  have hfiles : [flatTile] ≠ [] := List.cons_ne_nil _ _
  have hlat : 0 ≤ (srtm3.property (T := ℚ)).pixelY (115 / 2) := by decide +kernel
  have hmissing := hcorrect.reports_missing (by decide +kernel)
    ⟨none, some (-32768), some (-32768), some (-32768)⟩
  rw [elevation_eq allowed_srtm3 placed_flatTile (fun _ => hfiles) hlat] at hmissing
  exact absurd (Outcome.ok.inj hmissing) (by decide +kernel)

end DemType

end Alus.Dem
