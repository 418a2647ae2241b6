import Alus.Lib.Splits
import Alus.ThermalNoise.NoiseTiles
import Alus.Util.ShapesUtil

/-!
# The tile lists of the operators

`CalculateTiles` of thermal noise removal, of calibration and of terrain correction. Each counts one
tile more than the quotient in both directions and intersects the tiles of this grid with the
raster; what is left of the surplus ones has no width or no height and is dropped.
-/

namespace Alus.Util

open Alus.Lib Alus.Shapeutils

/-! ## The functions -/

/-- The quotient of two `int` values; it is not defined for the divisor zero. -/
def divideInt (a b : Int) : Outcome Int := if b = 0 then .undefined else int32 (a.tdiv b)

/-- The body of the inner loops of the two operators that go through the grid row by row. -/
def pushIntersection (tileWidth tileHeight xMax yMax yIndex : Int) (outputTiles : List Rectangle)
    (xIndex : Int) : Outcome (List Rectangle) := do
  let x ← int32 (xIndex * tileWidth)
  let y ← int32 (yIndex * tileHeight)
  let rectangle : Rectangle := ⟨x, y, tileWidth, tileHeight⟩
  if rectangle.x > xMax ∨ rectangle.y > yMax then return outputTiles
  else
    let intersection ← getIntersection rectangle ⟨0, 0, xMax, yMax⟩
    if intersection.width ≠ 0 ∧ intersection.height ≠ 0 then return outputTiles ++ [intersection]
    else return outputTiles

def tilesByRows (tileWidth tileHeight xMax yMax : Int) : Outcome (List Rectangle) := do
  let xQuotient ← divideInt xMax tileWidth
  let xCount ← int32 (xQuotient + 1)
  let yQuotient ← divideInt yMax tileHeight
  let yCount ← int32 (yQuotient + 1)
  (intRange 0 yCount).foldlM (fun outputTiles yIndex =>
    (intRange 0 xCount).foldlM (pushIntersection tileWidth tileHeight xMax yMax yIndex)
      outputTiles) []

/-- `ThermalNoiseRemover::CalculateTiles`. -/
def ThermalNoiseRemover.calculateTiles (tileWidth tileHeight : Int) (inRasterArea : Rectangle) :
    Outcome (List Rectangle) :=
  tilesByRows tileWidth tileHeight inRasterArea.width inRasterArea.height

/-- `Sentinel1Calibrator::CalculateTiles`. -/
def Sentinel1Calibrator.calculateTiles (tileWidth tileHeight rasterWidth rasterHeight : Int) :
    Outcome (List Rectangle) :=
  tilesByRows tileWidth tileHeight rasterWidth rasterHeight

/-- The area of the image that terrain correction cuts into tiles. -/
structure BaseImage where
  x0 : Int
  y0 : Int
  width : Int
  height : Int
  deriving DecidableEq, Repr

structure TcTileCoordinates where
  sourceX0 : Int
  sourceY0 : Int
  sourceWidth : Int
  sourceHeight : Int
  targetX0 : Int
  targetY0 : Int
  targetWidth : Int
  targetHeight : Int
  deriving DecidableEq, Repr

def TcTileCoordinates.target (tile : TcTileCoordinates) : Rectangle :=
  ⟨tile.targetX0, tile.targetY0, tile.targetWidth, tile.targetHeight⟩

/-- The conversion to `size_t`. -/
def toSize (z : Int) : Int := z % 2 ^ 64

/-- The quotient of a `size_t` value and an `int` value, which is converted to `size_t`. -/
def divideSize (a b : Int) : Outcome Int :=
  if toSize b = 0 then .undefined else .ok (a / toSize b)

/-- The body of the inner loop of terrain correction. -/
def pushTile (baseImage : BaseImage) (destBounds : Rectangle) (tileWidth tileHeight xIndex : Int)
    (outputTiles : List TcTileCoordinates) (yIndex : Int) : Outcome (List TcTileCoordinates) := do
  let columns ← int32 (xIndex * tileWidth)
  let x ← int32 (baseImage.x0 + columns)
  let rows ← int32 (yIndex * tileHeight)
  let y ← int32 (baseImage.y0 + rows)
  let rectangle : Rectangle := ⟨x, y, tileWidth, tileHeight⟩
  if rectangle.x > destBounds.width ∨ rectangle.y > destBounds.height then return outputTiles
  else
    let intersection ← getIntersection rectangle destBounds
    if intersection.width = 0 ∨ intersection.height = 0 then return outputTiles
    else
      return outputTiles ++ [⟨0, 0, 0, 0, intersection.x, intersection.y,
        toSize intersection.width, toSize intersection.height⟩]

/-- `TerrainCorrection::CalculateTiles`. -/
def TerrainCorrection.calculateTiles (baseImage : BaseImage) (destBounds : Rectangle)
    (tileWidth tileHeight : Int) : Outcome (List TcTileCoordinates) := do
  let xQuotient ← divideSize baseImage.width tileWidth
  let xCount ← int32 (xQuotient + 1)
  let yQuotient ← divideSize baseImage.height tileHeight
  let yCount ← int32 (yQuotient + 1)
  (intRange 0 xCount).foldlM (fun outputTiles xIndex =>
    (intRange 0 yCount).foldlM (pushTile baseImage destBounds tileWidth tileHeight xIndex)
      outputTiles) []

/-- As `ExecuteTerrainCorrection` calls it: for the whole target image. -/
def TerrainCorrection.targetTiles (targetXSize targetYSize tileWidth tileHeight : Int) :
    Outcome (List TcTileCoordinates) :=
  TerrainCorrection.calculateTiles ⟨0, 0, targetXSize, targetYSize⟩
    ⟨0, 0, targetXSize, targetYSize⟩ tileWidth tileHeight

/-! ## Rasters -/

/-- A range of at least one pixel, cut into tiles of at least one pixel; the end of the surplus tile
is an `int` value. -/
structure TiledRange (limit size : Int) : Prop where
  limit_pos : 1 ≤ limit
  size_pos : 1 ≤ size
  end_fits : Fits 32 (limit / size * size + size)

structure TiledRaster where
  width : Int
  height : Int
  tileWidth : Int
  tileHeight : Int
  columns : TiledRange width tileWidth
  rows : TiledRange height tileHeight

namespace TiledRange

variable {limit size : Int}

theorem limit_fits (h : TiledRange limit size) : Fits 32 limit := by
  have hend := fits32_iff.mp h.end_fits
  have hlt := Int.lt_ediv_add_one_mul_self limit (show 0 < size from h.size_pos)
  rw [Int.add_mul, Int.one_mul] at hlt
  have hpos := h.limit_pos
  exact fits32_iff.mpr (by omega)

theorem divideInt_eq (h : TiledRange limit size) : divideInt limit size = .ok (limit / size) := by
  have hquotient : limit / size ≤ limit :=
    Int.ediv_le_self size (by have := h.limit_pos; omega)
  have hnonneg : 0 ≤ limit / size :=
    Int.ediv_nonneg (by have := h.limit_pos; omega) (by have := h.size_pos; omega)
  have hfits := fits32_iff.mp h.limit_fits
  rw [divideInt, if_neg (by have := h.size_pos; omega),
    Int.tdiv_eq_ediv_of_nonneg (by have := h.limit_pos; omega)]
  exact int32_of_bounds (by omega) (by omega)

theorem divideSize_eq (h : TiledRange limit size) :
    divideSize limit size = .ok (limit / size) := by
  have hnonneg : 0 ≤ limit / size * size :=
    Int.mul_nonneg (Int.ediv_nonneg (by have := h.limit_pos; omega) (by have := h.size_pos; omega))
      (by have := h.size_pos; omega)
  have hsize := h.size_pos
  have hend := fits32_iff.mp h.end_fits
  have hsame : toSize size = size := by
    rw [toSize]
    omega
  rw [divideSize, hsame, if_neg (by omega)]

/-- The number of tiles, the surplus one included. -/
theorem count_fits (h : TiledRange limit size) : Fits 32 (limit / size + 1) := by
  have hend := fits32_iff.mp h.end_fits
  have hnonneg : 0 ≤ limit / size :=
    Int.ediv_nonneg (by have := h.limit_pos; omega) (by have := h.size_pos; omega)
  have hle : (limit / size + 1) * 1 ≤ (limit / size + 1) * size :=
    Int.mul_le_mul_of_nonneg_left h.size_pos (by omega)
  rw [Int.mul_one, Int.add_mul, Int.one_mul] at hle
  exact fits32_iff.mpr (by omega)

/-- Each tile of the grid begins in the raster or right behind it, and ends before the range of
`int` does. -/
theorem index_bounds (h : TiledRange limit size) {index : Int}
    (hindex : index ∈ intRange 0 (limit / size + 1)) :
    0 ≤ index * size ∧ index * size ≤ limit ∧ index * size + size < 2147483648 := by
  obtain ⟨h0, hlt⟩ := mem_intRange.mp hindex
  have hsize := h.size_pos
  have hle : index * size ≤ limit / size * size :=
    Int.mul_le_mul_of_nonneg_right (by omega) (by omega)
  have hlimit : limit / size * size ≤ limit := Int.ediv_mul_le limit (by omega)
  have hend := fits32_iff.mp h.end_fits
  exact ⟨Int.mul_nonneg h0 (by omega), by omega, by omega⟩

end TiledRange

/-! ## The loops -/

/-- The tile of the grid, cut off at the raster, unless nothing is left of it. -/
def gridTile (tileWidth tileHeight xMax yMax yIndex xIndex : Int) : Option Rectangle :=
  let rectangle : Rectangle := ⟨xIndex * tileWidth, yIndex * tileHeight, tileWidth, tileHeight⟩
  let intersection := ThermalNoise.getIntersection rectangle ⟨0, 0, xMax, yMax⟩
  if rectangle.x > xMax ∨ rectangle.y > yMax then none
  else if intersection.width ≠ 0 ∧ intersection.height ≠ 0 then some intersection
  else none

section Loops

variable {tileWidth tileHeight xMax yMax xIndex yIndex : Int}
  (hcolumns : TiledRange xMax tileWidth) (hrows : TiledRange yMax tileHeight)
include hcolumns hrows

theorem getIntersection_grid (hx : xIndex ∈ intRange 0 (xMax / tileWidth + 1))
    (hy : yIndex ∈ intRange 0 (yMax / tileHeight + 1)) :
    getIntersection ⟨xIndex * tileWidth, yIndex * tileHeight, tileWidth, tileHeight⟩
      ⟨0, 0, xMax, yMax⟩ =
      .ok (overlap ⟨xIndex * tileWidth, yIndex * tileHeight, tileWidth, tileHeight⟩
        ⟨0, 0, xMax, yMax⟩) := by
  have hxbounds := hcolumns.index_bounds hx
  have hybounds := hrows.index_bounds hy
  have hxlimit := fits32_iff.mp hcolumns.limit_fits
  have hylimit := fits32_iff.mp hrows.limit_fits
  have hwidth := hcolumns.size_pos
  have hheight := hrows.size_pos
  apply getIntersection_eq
  · exact edgesFit_mk (by omega) (by omega)
  · exact edgesFit_mk (by omega) (by omega)
  · simp only [overlap]
    omega
  · simp only [overlap]
    omega

theorem pushIntersection_eq (hx : xIndex ∈ intRange 0 (xMax / tileWidth + 1))
    (hy : yIndex ∈ intRange 0 (yMax / tileHeight + 1)) (outputTiles : List Rectangle) :
    pushIntersection tileWidth tileHeight xMax yMax yIndex outputTiles xIndex =
      .ok (outputTiles ++ (gridTile tileWidth tileHeight xMax yMax yIndex xIndex).toList) := by
  have hxbounds := hcolumns.index_bounds hx
  have hybounds := hrows.index_bounds hy
  have hwidth := hcolumns.size_pos
  have hheight := hrows.size_pos
  have hin : ¬ (xIndex * tileWidth > xMax ∨ yIndex * tileHeight > yMax) := by omega
  rw [pushIntersection, int32_of_bounds (by omega) (by omega), Outcome.ok_bind,
    int32_of_bounds (by omega) (by omega), Outcome.ok_bind, if_neg hin,
    getIntersection_grid hcolumns hrows hx hy, Outcome.ok_bind, gridTile, if_neg hin]
  show (if (overlap _ _).width ≠ 0 ∧ (overlap _ _).height ≠ 0 then _ else _) =
    Outcome.ok (outputTiles ++ Option.toList
      (if (overlap _ _).width ≠ 0 ∧ (overlap _ _).height ≠ 0 then some (overlap _ _) else none))
  split
  · rfl
  · rw [Option.toList_none, List.append_nil]
    rfl

theorem tilesByRows_eq : tilesByRows tileWidth tileHeight xMax yMax =
    .ok (ThermalNoise.calculateTiles tileWidth tileHeight xMax yMax) := by
  rw [tilesByRows, hcolumns.divideInt_eq, Outcome.ok_bind, int32_of_fits hcolumns.count_fits,
    Outcome.ok_bind, hrows.divideInt_eq, Outcome.ok_bind, int32_of_fits hrows.count_fits,
    Outcome.ok_bind]
  have hrow : ∀ yIndex ∈ intRange 0 (yMax / tileHeight + 1), ∀ outputTiles,
      (intRange 0 (xMax / tileWidth + 1)).foldlM
          (pushIntersection tileWidth tileHeight xMax yMax yIndex) outputTiles =
        .ok (outputTiles ++ (intRange 0 (xMax / tileWidth + 1)).flatMap fun xIndex =>
          (gridTile tileWidth tileHeight xMax yMax yIndex xIndex).toList) :=
    fun yIndex hy => Outcome.foldlM_push fun xIndex hx =>
      pushIntersection_eq hcolumns hrows hx hy
  rw [Outcome.foldlM_push hrow, List.nil_append, ThermalNoise.calculateTiles,
    Int.tdiv_eq_ediv_of_nonneg (by have := hcolumns.limit_pos; omega),
    Int.tdiv_eq_ediv_of_nonneg (by have := hrows.limit_pos; omega)]
  simp only [← List.filterMap_eq_flatMap_toList]
  rfl

/-- The tile of the target image in the record of terrain correction. -/
def tcTile (t : Rectangle) : TcTileCoordinates := ⟨0, 0, 0, 0, t.x, t.y, t.width, t.height⟩

theorem pushTile_eq (hx : xIndex ∈ intRange 0 (xMax / tileWidth + 1))
    (hy : yIndex ∈ intRange 0 (yMax / tileHeight + 1)) (outputTiles : List TcTileCoordinates) :
    pushTile ⟨0, 0, xMax, yMax⟩ ⟨0, 0, xMax, yMax⟩ tileWidth tileHeight xIndex outputTiles yIndex =
      .ok (outputTiles ++
        ((gridTile tileWidth tileHeight xMax yMax yIndex xIndex).map tcTile).toList) := by
  have hxbounds := hcolumns.index_bounds hx
  have hybounds := hrows.index_bounds hy
  have hwidth := hcolumns.size_pos
  have hheight := hrows.size_pos
  have hxlimit := fits32_iff.mp hcolumns.limit_fits
  have hylimit := fits32_iff.mp hrows.limit_fits
  -- the tile starts inside the image
  have hin : ¬ (xIndex * tileWidth > xMax ∨ yIndex * tileHeight > yMax) := by omega
  rw [pushTile, int32_of_bounds (by omega) (by omega), Outcome.ok_bind, Int.zero_add,
    int32_of_bounds (by omega) (by omega), Outcome.ok_bind,
    int32_of_bounds (by omega) (by omega), Outcome.ok_bind, Int.zero_add,
    int32_of_bounds (by omega) (by omega), Outcome.ok_bind, if_neg hin,
    getIntersection_grid hcolumns hrows hx hy, Outcome.ok_bind, gridTile, if_neg hin]
  set t := overlap ⟨xIndex * tileWidth, yIndex * tileHeight, tileWidth, tileHeight⟩
    ⟨0, 0, xMax, yMax⟩ with ht
  have hsize : toSize t.width = t.width ∧ toSize t.height = t.height := by
    simp only [toSize, ht, overlap]
    omega
  rw [hsize.1, hsize.2]
  show (if t.width = 0 ∨ t.height = 0 then _ else _) =
    Outcome.ok (outputTiles ++ ((if t.width ≠ 0 ∧ t.height ≠ 0 then some t else none).map
      tcTile).toList)
  by_cases hempty : t.width = 0 ∨ t.height = 0
  · rw [if_pos hempty, if_neg (by omega), Option.map_none, Option.toList_none, List.append_nil]
    rfl
  · rw [if_neg hempty, if_pos (by omega)]
    rfl

end Loops

theorem gridTile_swap (tileWidth tileHeight xMax yMax yIndex xIndex : Int) :
    gridTile tileHeight tileWidth yMax xMax xIndex yIndex =
      (gridTile tileWidth tileHeight xMax yMax yIndex xIndex).map Rectangle.transpose := by
  simp only [gridTile]
  by_cases hout : xIndex * tileWidth > xMax ∨ yIndex * tileHeight > yMax
  · rw [if_pos hout, if_pos hout.symm]
    rfl
  · rw [if_neg hout, if_neg fun h => hout h.symm]
    by_cases hne : (ThermalNoise.getIntersection
        ⟨xIndex * tileWidth, yIndex * tileHeight, tileWidth, tileHeight⟩
        ⟨0, 0, xMax, yMax⟩).width ≠ 0 ∧ (ThermalNoise.getIntersection
        ⟨xIndex * tileWidth, yIndex * tileHeight, tileWidth, tileHeight⟩
        ⟨0, 0, xMax, yMax⟩).height ≠ 0
    · rw [if_pos hne]
      exact if_pos hne.symm
    · rw [if_neg hne]
      exact if_neg fun h => hne h.symm

section Lists

variable {tileWidth tileHeight xMax yMax : Int}
  (hcolumns : TiledRange xMax tileWidth) (hrows : TiledRange yMax tileHeight)
include hcolumns hrows

/-- Terrain correction lists, column by column, what the row by row lists hold for the grid with
rows and columns exchanged. -/
theorem targetTiles_eq : TerrainCorrection.targetTiles xMax yMax tileWidth tileHeight =
    .ok ((ThermalNoise.calculateTiles tileHeight tileWidth yMax xMax).map
      fun t => tcTile t.transpose) := by
  have hcolumn : ∀ xIndex ∈ intRange 0 (xMax / tileWidth + 1), ∀ outputTiles,
      (intRange 0 (yMax / tileHeight + 1)).foldlM
          (pushTile ⟨0, 0, xMax, yMax⟩ ⟨0, 0, xMax, yMax⟩ tileWidth tileHeight xIndex)
          outputTiles =
        .ok (outputTiles ++ (intRange 0 (yMax / tileHeight + 1)).flatMap fun yIndex =>
          ((gridTile tileWidth tileHeight xMax yMax yIndex xIndex).map tcTile).toList) :=
    fun xIndex hx => Outcome.foldlM_push fun yIndex hy => pushTile_eq hcolumns hrows hx hy
  rw [TerrainCorrection.targetTiles, TerrainCorrection.calculateTiles, hcolumns.divideSize_eq,
    Outcome.ok_bind, int32_of_fits hcolumns.count_fits, Outcome.ok_bind, hrows.divideSize_eq,
    Outcome.ok_bind, int32_of_fits hrows.count_fits, Outcome.ok_bind,
    Outcome.foldlM_push hcolumn, List.nil_append, ThermalNoise.calculateTiles,
    Int.tdiv_eq_ediv_of_nonneg (by have := hrows.limit_pos; omega),
    Int.tdiv_eq_ediv_of_nonneg (by have := hcolumns.limit_pos; omega), List.map_flatMap]
  refine congrArg Outcome.ok (List.flatMap_congr fun xIndex _ => ?_)
  rw [← List.filterMap_eq_flatMap_toList, List.map_filterMap]
  refine List.filterMap_congr fun yIndex _ => ?_
  show _ = Option.map (tcTile ∘ Rectangle.transpose)
    (gridTile tileHeight tileWidth yMax xMax xIndex yIndex)
  rw [gridTile_swap, Option.map_map]

end Lists

/-! ## The lists -/

/-- **The tile lists cover the raster**: for every raster and tile size whose sums are `int` values,
each of the three lists is returned and partitions the raster, and the intersection that they rely
on is the set intersection of any two rectangles that have a common point. -/
theorem tileLists_cover (r : TiledRaster) (x y : Int) (r1 r2 : Rectangle) :
    (∃ tiles, ThermalNoiseRemover.calculateTiles r.tileWidth r.tileHeight
        ⟨x, y, r.width, r.height⟩ = .ok tiles ∧ IsPartition r.width r.height tiles) ∧
    (∃ tiles, Sentinel1Calibrator.calculateTiles r.tileWidth r.tileHeight r.width r.height =
        .ok tiles ∧ IsPartition r.width r.height tiles) ∧
    (∃ tiles, TerrainCorrection.targetTiles r.width r.height r.tileWidth r.tileHeight =
        .ok tiles ∧ IsPartition r.width r.height (tiles.map TcTileCoordinates.target)) ∧
    (EdgesFit r1 → EdgesFit r2 → (∃ px py, r1.Contains px py ∧ r2.Contains px py) →
      ∃ t, getIntersection r1 r2 = .ok t ∧
        ∀ px py, t.Contains px py ↔ r1.Contains px py ∧ r2.Contains px py) := by
  have hpartition : IsPartition r.width r.height
      (ThermalNoise.calculateTiles r.tileWidth r.tileHeight r.width r.height) :=
    ThermalNoise.isPartition_calculateTiles r.columns.size_pos r.rows.size_pos
  have htransposed : IsPartition r.width r.height
      ((ThermalNoise.calculateTiles r.tileHeight r.tileWidth r.height r.width).map
        Rectangle.transpose) :=
    (ThermalNoise.isPartition_calculateTiles r.rows.size_pos r.columns.size_pos).transpose
  refine ⟨⟨_, tilesByRows_eq r.columns r.rows, hpartition⟩,
    ⟨_, tilesByRows_eq r.columns r.rows, hpartition⟩,
    ⟨_, targetTiles_eq r.columns r.rows, ?_⟩, fun h1 h2 hcommon => ?_⟩
  · rw [List.map_map]
    exact htransposed
  · obtain ⟨px, py, hx, hx'⟩ := hcommon
    exact exists_getIntersection h1 h2 hx hx'

/-- Single columns and rows are left over on both sides. -/
theorem tileLists_cover_remainders :
    (∃ tiles, ThermalNoiseRemover.calculateTiles 2 2 ⟨0, 0, 5, 3⟩ = .ok tiles ∧
      IsPartition 5 3 tiles) ∧
    (∃ tiles, Sentinel1Calibrator.calculateTiles 2 2 5 3 = .ok tiles ∧ IsPartition 5 3 tiles) ∧
    (∃ tiles, TerrainCorrection.targetTiles 5 3 2 2 = .ok tiles ∧
      IsPartition 5 3 (tiles.map TcTileCoordinates.target)) ∧
    ∃ t, getIntersection ⟨4, 2, 2, 2⟩ ⟨0, 0, 5, 3⟩ = .ok t ∧
      ∀ px py, t.Contains px py ↔
        Rectangle.Contains ⟨4, 2, 2, 2⟩ px py ∧ Rectangle.Contains ⟨0, 0, 5, 3⟩ px py := by
  have h := tileLists_cover
    ⟨5, 3, 2, 2, ⟨by decide, by decide, by decide⟩, ⟨by decide, by decide, by decide⟩⟩ 0 0
    ⟨4, 2, 2, 2⟩ ⟨0, 0, 5, 3⟩
  exact ⟨h.1, h.2.1, h.2.2.1,
    h.2.2.2 (by decide) (by decide) ⟨4, 2, by decide, by decide⟩⟩

end Alus.Util
