import Mathlib.Algebra.Ring.Basic
import Mathlib.Tactic.Ring
import Alus.FeatureExtractionGabor.PatchedImage
import Alus.Lib.Loop
import Alus.Lib.Strides
import Alus.Lib.Tiling

/-!
# The tiles of a resampled image

An image is cut into tiles that overlap, row by row from its origin (`tyler_the_creator.cc`). The
offsets are sizes and advance by the tile's size less the overlap until they have passed the image,
and the position of a tile advances with them. The position is exact.
-/

namespace Alus.Resample

open Alus.Lib
open Alus.FeatureExtractionGabor (RasterDimension castInt castSize castInt_of_lt castSize_natCast)

structure PixelPosition where
  x : Int
  y : Int
  deriving DecidableEq, Repr

structure GeoTransformParameters (F : Type) where
  originLon : F
  originLat : F
  pixelSizeLon : F
  pixelSizeLat : F
  deriving DecidableEq, Repr

structure TileConstruct (F : Type) where
  imageDimension : RasterDimension
  imageGt : GeoTransformParameters F
  tileDimension : RasterDimension
  overlap : Nat
  deriving DecidableEq, Repr

structure TileProperties (F : Type) where
  offset : PixelPosition
  gt : GeoTransformParameters F
  dimension : RasterDimension
  tileNoX : Nat
  tileNoY : Nat
  deriving DecidableEq, Repr

def TileProperties.rectangle {F : Type} (t : TileProperties F) : Rectangle :=
  ⟨t.offset.x, t.offset.y, t.dimension.columnsX, t.dimension.rowsY⟩

def checkTileSize (imageDim tileDim : RasterDimension) (overlap : Nat) : Outcome Unit :=
  if tileDim.columnsX < 1 ∨ tileDim.rowsY < 1 then .throws
  else do
    let columns ← int32 (tileDim.columnsX + castInt overlap)
    if columns > imageDim.columnsX then .throws
    else
      let rows ← int32 (tileDim.rowsY + castInt overlap)
      if rows > imageDim.rowsY then .throws
      else if tileDim.columnsX.tdiv 2 ≤ castInt overlap ∨
          tileDim.rowsY.tdiv 2 ≤ castInt overlap then .throws
      else return ()

/-! ## Sizes -/

def addSize (a b : Nat) : Nat := (a + b) % 18446744073709551616

def subSize (a b : Nat) : Nat := castSize ((a : Int) - b)

/-- `std::clamp`. -/
def clampSize (v lo hi : Nat) : Nat := if v < lo then lo else if hi < v then hi else v

/-! ## The loops -/

section Loops

variable {F : Type} [CommRing F]

/-- What the passes over the columns change. -/
structure ColumnState (F : Type) where
  tiles : List (TileProperties F)
  lon : F
  tileX : Nat
  tileNoX : Nat

/-- What the passes over the rows change. -/
structure RowState (F : Type) where
  tiles : List (TileProperties F)
  lat : F
  tileY : Nat
  tileNoY : Nat

def columnPass (p : TileConstruct F) (lat : F) (tileY tileYEnd tileNoY : Nat)
    (s : ColumnState F) : Outcome (Pass (ColumnState F) (List (TileProperties F))) :=
  let imageDimX := castSize p.imageDimension.columnsX
  let stepX := subSize (castSize p.tileDimension.columnsX) p.overlap
  if s.tileX < imageDimX then
    let tileXEnd :=
      clampSize (addSize s.tileX (castSize p.tileDimension.columnsX)) s.tileX imageDimX
    let prop : TileProperties F :=
      ⟨⟨castInt s.tileX, castInt tileY⟩,
        ⟨s.lon, lat, p.imageGt.pixelSizeLon, p.imageGt.pixelSizeLat⟩,
        ⟨castInt (subSize tileXEnd s.tileX), castInt (subSize tileYEnd tileY)⟩, s.tileNoX, tileNoY⟩
    .ok (.next ⟨s.tiles ++ [prop], s.lon + stepX * p.imageGt.pixelSizeLon, addSize s.tileX stepX,
      addSize s.tileNoX 1⟩)
  else .ok (.done s.tiles)

/-- A row whose columns have not been passed in so many passes has no tiles. -/
def rowPass (p : TileConstruct F) (passes : Nat) (s : RowState F) :
    Outcome (Pass (RowState F) (Option (List (TileProperties F)))) :=
  let imageDimY := castSize p.imageDimension.rowsY
  let stepY := subSize (castSize p.tileDimension.rowsY) p.overlap
  if s.tileY < imageDimY then do
    let tileYEnd := clampSize (addSize s.tileY (castSize p.tileDimension.rowsY)) s.tileY imageDimY
    match ← runLoop (columnPass p s.lat s.tileY tileYEnd s.tileNoY) passes
        ⟨s.tiles, p.imageGt.originLon, 0, 1⟩ with
    | none => .ok (.done none)
    | some tiles => .ok (.next ⟨tiles, s.lat + stepY * p.imageGt.pixelSizeLat,
        addSize s.tileY stepY, addSize s.tileNoY 1⟩)
  else .ok (.done (some s.tiles))

/-- `CreateTiles`, with so many passes for each loop. It is `none` while a loop has not ended. -/
def createTiles (passes : Nat) (p : TileConstruct F) :
    Outcome (Option (List (TileProperties F))) := do
  checkTileSize p.imageDimension p.tileDimension p.overlap
  let tiles ← runLoop (rowPass p passes) passes ⟨[], p.imageGt.originLat, 0, 1⟩
  return tiles.join

end Loops

/-! ## What is accepted -/

/-- Along one axis: a tile is longer than two overlaps, and with one it is not longer than the
image. -/
structure AxisFits (imageSize tileSize : Int) (overlap : Nat) : Prop where
  two_overlaps_lt : 2 * (overlap : Int) + 2 ≤ tileSize
  tile_le : tileSize + overlap ≤ imageSize

/-- What is accepted with an overlap that is an `int`. -/
theorem fits_of_checkTileSize {imageDim tileDim : RasterDimension} {overlap : Nat}
    (hoverlap : overlap < 2147483648) (h : checkTileSize imageDim tileDim overlap = .ok ()) :
    AxisFits imageDim.columnsX tileDim.columnsX overlap ∧
      AxisFits imageDim.rowsY tileDim.rowsY overlap := by
  rw [checkTileSize, castInt_of_lt hoverlap] at h
  split at h
  · cases h
  · rename_i hpositive
    obtain ⟨columns, hcolumns, h⟩ := Outcome.bind_eq_ok.mp h
    obtain ⟨-, rfl⟩ := int32_eq_ok.mp hcolumns
    split at h
    · cases h
    · rename_i hcolumns
      obtain ⟨rows, hrows, h⟩ := Outcome.bind_eq_ok.mp h
      obtain ⟨-, rfl⟩ := int32_eq_ok.mp hrows
      split at h
      · cases h
      · rename_i hrows
        split at h
        · cases h
        · rename_i hoverlaps
          rw [Int.tdiv_eq_ediv_of_nonneg (by omega),
            Int.tdiv_eq_ediv_of_nonneg (by omega)] at hoverlaps
          exact ⟨⟨by omega, by omega⟩, ⟨by omega, by omega⟩⟩

namespace AxisFits

variable {imageSize tileSize : Int} {overlap : Nat} (h : AxisFits imageSize tileSize overlap)

/-- Where the tiles of the axis start and end. -/
def strides : Strides where
  limit := imageSize.toNat
  size := tileSize.toNat
  stride := tileSize.toNat - overlap
  stride_pos := by
    have hoverlap := h.two_overlaps_lt
    omega
  stride_le := Nat.sub_le _ _

theorem overlap_strides : h.strides.overlap = overlap := by
  have hoverlap := h.two_overlaps_lt
  show tileSize.toNat - (tileSize.toNat - overlap) = overlap
  omega

theorem overlap_lt_stride : h.strides.overlap < h.strides.stride := by
  have hoverlap := h.two_overlaps_lt
  rw [h.overlap_strides]
  show overlap < tileSize.toNat - overlap
  omega

theorem limit_strides : (h.strides.limit : Int) = imageSize := by
  have hoverlap := h.two_overlaps_lt
  have htile := h.tile_le
  show (imageSize.toNat : Int) = imageSize
  omega

/-- The offset of a tile, by its number. -/
theorem start_eq (k : Nat) :
    (h.strides.start k : Int) = (((k + 1 : Nat) : Int) - 1) * (tileSize - overlap) := by
  have hoverlap := h.two_overlaps_lt
  have hstride : ((tileSize.toNat - overlap : Nat) : Int) = tileSize - overlap := by omega
  show ((k * (tileSize.toNat - overlap) : Nat) : Int) = _
  rw [Nat.cast_mul, hstride, Nat.cast_succ, add_sub_cancel_right]

section Machine

variable (himage : imageSize < 2147483648)

include himage

theorem limit_lt : h.strides.limit < 2147483648 := by
  have hlimit := h.limit_strides
  omega

theorem castSize_image : castSize imageSize = h.strides.limit := by
  rw [← castSize_natCast (h.limit_lt himage)]
  exact congrArg castSize h.limit_strides.symm

theorem castSize_tile : castSize tileSize = h.strides.size := by
  have hoverlap := h.two_overlaps_lt
  have htile := h.tile_le
  show castSize tileSize = tileSize.toNat
  rw [castSize, Int.emod_eq_of_lt (by omega) (by omega)]

theorem size_lt : h.strides.size < 2147483648 := by
  have hoverlap := h.two_overlaps_lt
  have htile := h.tile_le
  show tileSize.toNat < 2147483648
  omega

theorem subSize_step : subSize (castSize tileSize) overlap = h.strides.stride := by
  have hsize := h.size_lt himage
  have hstride : h.strides.stride = h.strides.size - overlap := rfl
  have hpos := h.strides.stride_pos
  rw [h.castSize_tile himage, subSize, castSize]
  omega

theorem addSize_step {k : Nat} (hk : k < h.strides.count) :
    addSize (h.strides.start k) h.strides.stride = h.strides.start (k + 1) := by
  have hstart := Strides.lt_count.mp hk
  have hlimit := h.limit_lt himage
  have hsize := h.size_lt himage
  have hle := h.strides.stride_le
  rw [Strides.start_succ, addSize]
  omega

theorem clampSize_stop {k : Nat} (hk : k < h.strides.count) :
    clampSize (addSize (h.strides.start k) h.strides.size) (h.strides.start k) h.strides.limit =
      h.strides.stop k := by
  have hstart := Strides.lt_count.mp hk
  have hlimit := h.limit_lt himage
  have hsize := h.size_lt himage
  rw [addSize, Nat.mod_eq_of_lt (by omega), clampSize, if_neg (by omega), Strides.stop]
  split <;> omega

theorem castInt_start {k : Nat} (hk : k < h.strides.count) :
    castInt (h.strides.start k) = h.strides.start k := by
  have hstart := Strides.lt_count.mp hk
  have hlimit := h.limit_lt himage
  exact castInt_of_lt (by omega)

theorem castInt_size {k : Nat} (hk : k < h.strides.count) :
    castInt (subSize (h.strides.stop k) (h.strides.start k)) =
      (h.strides.stop k : Int) - h.strides.start k := by
  have hnonempty := Strides.start_lt_stop hk
  have hstop := h.strides.stop_le k
  have hlimit := h.limit_lt himage
  rw [subSize, castSize, Int.emod_eq_of_lt (by omega) (by omega), castInt_of_lt (by omega)]
  omega

theorem addSize_no {k : Nat} (hk : k < h.strides.count) : addSize (k + 1) 1 = k + 1 + 1 := by
  have hcount := h.strides.count_le
  have hlimit := h.limit_lt himage
  rw [addSize]
  omega

end Machine

end AxisFits

/-! ## The tiles -/

section Tiles

variable {F : Type} [CommRing F]

/-- The position of an offset in the image. -/
def gtAt (gt : GeoTransformParameters F) (offset : PixelPosition) : GeoTransformParameters F :=
  ⟨gt.originLon + offset.x * gt.pixelSizeLon, gt.originLat + offset.y * gt.pixelSizeLat,
    gt.pixelSizeLon, gt.pixelSizeLat⟩

/-- The tile of a column and a row. -/
def tileAt (gt : GeoTransformParameters F) (columns rows : Strides) (i j : Nat) :
    TileProperties F :=
  ⟨⟨columns.start i, rows.start j⟩, gtAt gt ⟨columns.start i, rows.start j⟩,
    ⟨(columns.stop i : Int) - columns.start i, (rows.stop j : Int) - rows.start j⟩, i + 1, j + 1⟩

/-- The tiles of a row. -/
def rowTiles (gt : GeoTransformParameters F) (columns rows : Strides) (j : Nat) :
    List (TileProperties F) :=
  (List.range columns.count).map fun i => tileAt gt columns rows i j

/-- The tiles of the image, row by row. -/
def gridTiles (gt : GeoTransformParameters F) (columns rows : Strides) :
    List (TileProperties F) :=
  (List.range rows.count).flatMap (rowTiles gt columns rows)

variable {p : TileConstruct F} {passes : Nat}
  (hx : AxisFits p.imageDimension.columnsX p.tileDimension.columnsX p.overlap)
  (hy : AxisFits p.imageDimension.rowsY p.tileDimension.rowsY p.overlap)
  (himageX : p.imageDimension.columnsX < 2147483648)
  (himageY : p.imageDimension.rowsY < 2147483648)

include himageX himageY

/-- The state before the pass over a column. -/
def columnState (p : TileConstruct F) (columns rows : Strides) (j : Nat)
    (tiles : List (TileProperties F)) (i : Nat) : ColumnState F :=
  ⟨tiles ++ (List.range i).map fun i => tileAt p.imageGt columns rows i j,
    p.imageGt.originLon + columns.start i * p.imageGt.pixelSizeLon, columns.start i, i + 1⟩

theorem columnPass_next {i j : Nat} (hi : i < hx.strides.count) (hj : j < hy.strides.count)
    (tiles : List (TileProperties F)) :
    columnPass p (p.imageGt.originLat + hy.strides.start j * p.imageGt.pixelSizeLat)
        (hy.strides.start j) (hy.strides.stop j) (j + 1)
        (columnState p hx.strides hy.strides j tiles i) =
      .ok (.next (columnState p hx.strides hy.strides j tiles (i + 1))) := by
  have htile := hx.castSize_tile himageX
  dsimp only [columnPass, columnState]
  rw [hx.castSize_image himageX, hx.subSize_step himageX, htile, if_pos (Strides.lt_count.mp hi),
    hx.clampSize_stop himageX hi, hx.addSize_step himageX hi, hx.addSize_no himageX hi,
    hx.castInt_start himageX hi, hx.castInt_size himageX hi, hy.castInt_start himageY hj,
    hy.castInt_size himageY hj, List.range_succ, List.map_append, List.map_singleton,
    ← List.append_assoc, tileAt, gtAt, Strides.start_succ, Int.cast_natCast, Int.cast_natCast,
    Nat.cast_add, add_mul, add_assoc]

/-- The passes over the columns of a row. -/
theorem runLoop_columnPass {j : Nat} (hj : j < hy.strides.count)
    (hpasses : hx.strides.count < passes) (tiles : List (TileProperties F)) :
    runLoop (columnPass p (p.imageGt.originLat + hy.strides.start j * p.imageGt.pixelSizeLat)
        (hy.strides.start j) (hy.strides.stop j) (j + 1)) passes
        ⟨tiles, p.imageGt.originLon, 0, 1⟩ =
      .ok (some (tiles ++ rowTiles p.imageGt hx.strides hy.strides j)) := by
  have hstart : columnState p hx.strides hy.strides j tiles 0 =
      ⟨tiles, p.imageGt.originLon, 0, 1⟩ := by
    simp [columnState, Strides.start_zero]
  rw [← hstart]
  refine runLoop_of_states _ (fun i hi => columnPass_next hx hy himageX himageY hi hj tiles) ?_
    hpasses
  have hlast : ¬ hx.strides.start hx.strides.count < hx.strides.limit :=
    fun h => lt_irrefl _ (Strides.lt_count.mpr h)
  dsimp only [columnPass, columnState]
  rw [hx.castSize_image himageX, if_neg hlast, rowTiles]

/-- The state before the pass over a row. -/
def rowState (p : TileConstruct F) (columns rows : Strides) (j : Nat) : RowState F :=
  ⟨(List.range j).flatMap (rowTiles p.imageGt columns rows),
    p.imageGt.originLat + rows.start j * p.imageGt.pixelSizeLat, rows.start j, j + 1⟩

theorem rowPass_next {j : Nat} (hj : j < hy.strides.count) (hpasses : hx.strides.count < passes) :
    rowPass p passes (rowState p hx.strides hy.strides j) =
      .ok (.next (rowState p hx.strides hy.strides (j + 1))) := by
  have htile := hy.castSize_tile himageY
  dsimp only [rowPass, rowState]
  rw [hy.castSize_image himageY, hy.subSize_step himageY, htile, if_pos (Strides.lt_count.mp hj),
    hy.clampSize_stop himageY hj, runLoop_columnPass hx hy himageX himageY hj hpasses,
    hy.addSize_step himageY hj, hy.addSize_no himageY hj, List.range_succ, List.flatMap_append,
    List.flatMap_singleton, Strides.start_succ, Nat.cast_add, add_mul, add_assoc]
  rfl

/-- The loops end, with the tiles of the image. -/
theorem createTiles_eq (hpassesX : hx.strides.count < passes)
    (hpassesY : hy.strides.count < passes)
    (haccept : checkTileSize p.imageDimension p.tileDimension p.overlap = .ok ()) :
    createTiles passes p = .ok (some (gridTiles p.imageGt hx.strides hy.strides)) := by
  have hstart : rowState p hx.strides hy.strides 0 = ⟨[], p.imageGt.originLat, 0, 1⟩ := by
    simp [rowState, Strides.start_zero]
  have hrun : runLoop (rowPass p passes) passes (rowState p hx.strides hy.strides 0) =
      .ok (some (some (gridTiles p.imageGt hx.strides hy.strides))) := by
    refine runLoop_of_states _ (fun j hj => rowPass_next hx hy himageX himageY hj hpassesX) ?_
      hpassesY
    have hlast : ¬ hy.strides.start hy.strides.count < hy.strides.limit :=
      fun h => lt_irrefl _ (Strides.lt_count.mpr h)
    dsimp only [rowPass, rowState]
    rw [hy.castSize_image himageY, if_neg hlast, gridTiles]
  rw [createTiles, haccept, Outcome.ok_bind, ← hstart, hrun]
  rfl

end Tiles

/-! ## What the tiles are -/

section Tiling

variable {F : Type} [CommRing F]

/-- How much two intervals, by start and size, have in common. -/
def commonSize (start size start' size' : Int) : Int :=
  min (start + size) (start' + size') - max start start'

/-- A tile is not empty and lies in the image, and no pixel is left out. A tile and the next one of
its row or column have the overlap in common, or the whole next tile where that is smaller. A tile
lies in another one exactly when along each axis it has the same number, or is the next one and not
larger than the overlap. -/
structure IsTiling (p : TileConstruct F) (tiles : List (TileProperties F)) : Prop where
  inside : ∀ t ∈ tiles, t.rectangle.Inside p.imageDimension.columnsX p.imageDimension.rowsY
  covers : ∀ x y, 0 ≤ x → x < p.imageDimension.columnsX → 0 ≤ y → y < p.imageDimension.rowsY →
    ∃ t ∈ tiles, t.rectangle.Contains x y
  commonColumns : ∀ t ∈ tiles, ∀ t' ∈ tiles, t'.tileNoX = t.tileNoX + 1 →
    t'.tileNoY = t.tileNoY →
    commonSize t.offset.x t.dimension.columnsX t'.offset.x t'.dimension.columnsX =
      min (p.overlap : Int) t'.dimension.columnsX
  commonRows : ∀ t ∈ tiles, ∀ t' ∈ tiles, t'.tileNoY = t.tileNoY + 1 → t'.tileNoX = t.tileNoX →
    commonSize t.offset.y t.dimension.rowsY t'.offset.y t'.dimension.rowsY =
      min (p.overlap : Int) t'.dimension.rowsY
  within : ∀ t ∈ tiles, ∀ t' ∈ tiles, t.rectangle.Within t'.rectangle ↔
    (t.tileNoX = t'.tileNoX ∨
      t.tileNoX = t'.tileNoX + 1 ∧ t.dimension.columnsX ≤ p.overlap) ∧
    (t.tileNoY = t'.tileNoY ∨ t.tileNoY = t'.tileNoY + 1 ∧ t.dimension.rowsY ≤ p.overlap)
  gt : ∀ t ∈ tiles, t.gt = gtAt p.imageGt t.offset
  numbers : ∃ columns rows, tiles.map (fun t => (t.tileNoY, t.tileNoX)) =
    (List.range rows).map (· + 1) ×ˢ (List.range columns).map (· + 1)
  offset : ∀ t ∈ tiles,
    t.offset.x = ((t.tileNoX : Int) - 1) * (p.tileDimension.columnsX - p.overlap) ∧
      t.offset.y = ((t.tileNoY : Int) - 1) * (p.tileDimension.rowsY - p.overlap)

theorem mem_gridTiles {gt : GeoTransformParameters F} {columns rows : Strides}
    {t : TileProperties F} : t ∈ gridTiles gt columns rows ↔
      ∃ i < columns.count, ∃ j < rows.count, tileAt gt columns rows i j = t := by
  simp only [gridTiles, rowTiles, List.mem_flatMap, List.mem_map, List.mem_range]
  constructor
  · rintro ⟨j, hj, i, hi, rfl⟩
    exact ⟨i, hi, j, hj, rfl⟩
  · rintro ⟨i, hi, j, hj, rfl⟩
    exact ⟨j, hj, i, hi, rfl⟩

theorem numbers_gridTiles (gt : GeoTransformParameters F) (columns rows : Strides) :
    (gridTiles gt columns rows).map (fun t => (t.tileNoY, t.tileNoX)) =
      (List.range rows.count).map (· + 1) ×ˢ (List.range columns.count).map (· + 1) := by
  rw [gridTiles, List.map_flatMap]
  show _ = List.flatMap _ _
  rw [List.flatMap_map]
  refine List.flatMap_congr fun j _ => ?_
  rw [rowTiles, List.map_map, List.map_map]
  rfl

/-- A window and the next one have in common what the windows overlap. -/
theorem commonSize_strides {w : Strides} {k : Nat} (hk : k + 1 < w.count) :
    commonSize (w.start k) ((w.stop k : Int) - w.start k) (w.start (k + 1))
        ((w.stop (k + 1) : Int) - w.start (k + 1)) =
      min (w.overlap : Int) ((w.stop (k + 1) : Int) - w.start (k + 1)) := by
  have hstop := Strides.stop_sub_start_succ hk
  have hnonempty := Strides.start_lt_stop hk
  have hstart := Strides.start_le_start (w := w) (Nat.le_succ k)
  have hle := Strides.stop_le_stop (w := w) (Nat.le_succ k)
  rw [Nat.succ_eq_add_one] at *
  rw [commonSize]
  omega

section Grid

variable {p : TileConstruct F}
  (hx : AxisFits p.imageDimension.columnsX p.tileDimension.columnsX p.overlap)
  (hy : AxisFits p.imageDimension.rowsY p.tileDimension.rowsY p.overlap)

include hx hy

theorem inside_tileAt {i j : Nat} (hi : i < hx.strides.count) (hj : j < hy.strides.count) :
    (tileAt p.imageGt hx.strides hy.strides i j).rectangle.Inside p.imageDimension.columnsX
      p.imageDimension.rowsY := by
  have hcolumns := Strides.start_lt_stop hi
  have hrows := Strides.start_lt_stop hj
  have hcolumnsStop := hx.strides.stop_le i
  have hrowsStop := hy.strides.stop_le j
  have hwidth := hx.limit_strides
  have hheight := hy.limit_strides
  simp only [Rectangle.Inside, TileProperties.rectangle, tileAt]
  omega

theorem within_tileAt {i j i' j' : Nat} (hi : i < hx.strides.count) (hj : j < hy.strides.count)
    (hi' : i' < hx.strides.count) (hj' : j' < hy.strides.count) :
    (tileAt p.imageGt hx.strides hy.strides i j).rectangle.Within
        (tileAt p.imageGt hx.strides hy.strides i' j').rectangle ↔
      (i = i' ∨ i = i' + 1 ∧ hx.strides.stop i - hx.strides.start i ≤ p.overlap) ∧
        (j = j' ∨ j = j' + 1 ∧ hy.strides.stop j - hy.strides.start j ≤ p.overlap) := by
  have hcolumns := Strides.within_iff hx.overlap_lt_stride hi hi'
  have hrows := Strides.within_iff hy.overlap_lt_stride hj hj'
  rw [hx.overlap_strides] at hcolumns
  rw [hy.overlap_strides] at hrows
  have hinside := inside_tileAt hx hy hi hj
  rw [Rectangle.within_iff hinside.1 hinside.2.1, ← hcolumns, ← hrows]
  simp only [TileProperties.rectangle, tileAt]
  omega

theorem isTiling_gridTiles : IsTiling p (gridTiles p.imageGt hx.strides hy.strides) where
  inside t ht := by
    obtain ⟨i, hi, j, hj, rfl⟩ := mem_gridTiles.mp ht
    exact inside_tileAt hx hy hi hj
  covers x y hx0 hxlt hy0 hylt := by
    have hwidth := hx.limit_strides
    have hheight := hy.limit_strides
    -- some window along each axis holds the pixel
    obtain ⟨i, hi, hcolumns⟩ :=
      hx.strides.exists_window (show x.toNat < hx.strides.limit by omega)
    obtain ⟨j, hj, hrows⟩ := hy.strides.exists_window (show y.toNat < hy.strides.limit by omega)
    refine ⟨_, mem_gridTiles.mpr ⟨i, hi, j, hj, rfl⟩, ?_⟩
    simp only [Rectangle.Contains, TileProperties.rectangle, tileAt]
    omega
  commonColumns t ht t' ht' hno _ := by
    obtain ⟨i, hi, j, hj, rfl⟩ := mem_gridTiles.mp ht
    obtain ⟨i', hi', j', hj', rfl⟩ := mem_gridTiles.mp ht'
    -- the next tile number is the next window
    obtain rfl : i' = i + 1 := Nat.succ.inj hno
    have hcommon := commonSize_strides hi'
    rw [hx.overlap_strides] at hcommon
    exact hcommon
  commonRows t ht t' ht' hno _ := by
    obtain ⟨i, hi, j, hj, rfl⟩ := mem_gridTiles.mp ht
    obtain ⟨i', hi', j', hj', rfl⟩ := mem_gridTiles.mp ht'
    obtain rfl : j' = j + 1 := Nat.succ.inj hno
    have hcommon := commonSize_strides hj'
    rw [hy.overlap_strides] at hcommon
    exact hcommon
  within t ht t' ht' := by
    obtain ⟨i, hi, j, hj, rfl⟩ := mem_gridTiles.mp ht
    obtain ⟨i', hi', j', hj', rfl⟩ := mem_gridTiles.mp ht'
    rw [within_tileAt hx hy hi hj hi' hj']
    simp only [tileAt]
    omega
  gt t ht := by
    obtain ⟨i, hi, j, hj, rfl⟩ := mem_gridTiles.mp ht
    rfl
  numbers := ⟨hx.strides.count, hy.strides.count, numbers_gridTiles _ _ _⟩
  offset t ht := by
    obtain ⟨i, hi, j, hj, rfl⟩ := mem_gridTiles.mp ht
    exact ⟨hx.start_eq i, hy.start_eq j⟩

end Grid

/-- The loops end, and what they leave are the tiles of the image, for an image and an overlap that
are counted by `int`s. -/
theorem createTiles_isTiling (p : TileConstruct F)
    (himageX : p.imageDimension.columnsX < 2147483648)
    (himageY : p.imageDimension.rowsY < 2147483648) (hoverlap : p.overlap < 2147483648)
    (haccept : checkTileSize p.imageDimension p.tileDimension p.overlap = .ok ()) :
    ∃ tiles, (∃ bound, ∀ passes, bound < passes → createTiles passes p = .ok (some tiles)) ∧
      IsTiling p tiles := by
  obtain ⟨hx, hy⟩ := fits_of_checkTileSize hoverlap haccept
  refine ⟨gridTiles p.imageGt hx.strides hy.strides,
    ⟨max hx.strides.count hy.strides.count, fun passes hpasses => ?_⟩,
    isTiling_gridTiles hx hy⟩
  exact createTiles_eq hx hy himageX himageY (lt_of_le_of_lt (le_max_left _ _) hpasses)
    (lt_of_le_of_lt (le_max_right _ _) hpasses) haccept

/-- An image of 7 columns and 5 rows. The last tile of each row starts at the last column. -/
def overlapOnly : TileConstruct Int :=
  ⟨⟨7, 5⟩, ⟨100, 200, 1, -1⟩, ⟨4, 4⟩, 1⟩

theorem createTiles_isTiling_overlapOnly :
    checkTileSize overlapOnly.imageDimension overlapOnly.tileDimension overlapOnly.overlap =
        .ok () ∧
      ∃ tiles, (∃ bound, ∀ passes, bound < passes →
          createTiles passes overlapOnly = .ok (some tiles)) ∧ IsTiling overlapOnly tiles :=
  ⟨by decide, createTiles_isTiling overlapOnly (by decide) (by decide) (by decide) (by decide)⟩

theorem columnsFit_overlapOnly : AxisFits 7 4 1 := ⟨by decide, by decide⟩

theorem rowsFit_overlapOnly : AxisFits 5 4 1 := ⟨by decide, by decide⟩

theorem mem_overlapOnly {i : Nat} (hi : i < 3) :
    tileAt overlapOnly.imageGt columnsFit_overlapOnly.strides rowsFit_overlapOnly.strides i 0 ∈
      gridTiles overlapOnly.imageGt columnsFit_overlapOnly.strides rowsFit_overlapOnly.strides :=
  mem_gridTiles.mpr ⟨i, hi, 0, show 0 < 2 by decide, rfl⟩

/-- The last tile of a row, of overlap only, lies in the one before it. -/
theorem overlapOnly_within : ∃ tiles, createTiles 8 overlapOnly = .ok (some tiles) ∧
    ¬ ∀ t ∈ tiles, ∀ t' ∈ tiles, t ≠ t' → ¬ t.rectangle.Within t'.rectangle := by
  refine ⟨_, createTiles_eq (p := overlapOnly) columnsFit_overlapOnly rowsFit_overlapOnly
    (by decide) (by decide) (by decide) (by decide) (by decide), fun h => ?_⟩
  refine h _ (mem_overlapOnly (show 2 < 3 by decide)) _ (mem_overlapOnly (show 1 < 3 by decide))
    (fun hsame => ?_) ?_
  · cases congrArg TileProperties.tileNoX hsame
  · exact (within_tileAt (p := overlapOnly) columnsFit_overlapOnly rowsFit_overlapOnly
      (by decide) (by decide) (by decide) (by decide)).mpr ⟨.inr ⟨rfl, by decide⟩, .inl rfl⟩

end Tiling

end Alus.Resample
