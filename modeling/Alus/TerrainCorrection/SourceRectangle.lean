import Mathlib.Data.Rat.Floor
import Alus.Lib.Rounding
import Alus.Lib.Tiling
import Alus.SnapEngine.BilinearInterpolation

/-!
# The source rectangle of a target tile

For a tile of the target raster, `CalculateTile` (`terrain_correction.cc`) finds the position of
every pixel in the source image, reads the rectangle of the source that the positions need, and
resamples it at each of them. A first kernel keeps the positions that `IsValidCellImpl` accepts
and reduces them to a bounding box; the second one, `TerrainCorrectionKernel`, computes indices
in the whole image and shifts them into the rectangle.

Positions are exact numbers; the geocoding that finds them and the source image are parameters.
-/

namespace Alus.TerrainCorrection

open Alus.Lib
open Alus.SnapEngine (ResamplingIndex computeIndex resampleNoDem computeIndex_add_half)

/-- `BILINEAR_INTERPOLATION_MARGIN`. -/
def bilinearInterpolationMargin : Int := 1

section Kernels

variable {T : Type} [Field T] [LinearOrder T] [FloorRing T]

/-- The source band, by column and row. -/
structure SourceBand (T : Type) where
  xSize : Int
  ySize : Int
  pixel : Int → Int → T
  x_fits : xSize ≤ 2147483647
  y_fits : ySize ≤ 2147483647

/-- The pixels of the target: their range and azimuth index, where there is an elevation and
`GetPositionImpl` finds them. -/
structure TargetCells (T : Type) where
  position : Int → Int → Option (T × T)
  diffLat : Int

/-- `IsValidCellImpl`. -/
def isValidCell (rangeIndex azimuthIndex : T) (diffLat srcMaxRange srcMaxAzimuth : Int) : Bool :=
  if rangeIndex < 0 ∨ rangeIndex ≥ srcMaxRange ∨ azimuthIndex ≤ 0 ∨
      azimuthIndex ≥ srcMaxAzimuth then false
  else decide (diffLat < 5)

variable (band : SourceBand T) (cells : TargetCells T)

/-- `d_range_index` and `d_azimuth_index` of a pixel; without a value, the azimuth is NaN. -/
def acceptedCell (px py : Int) : Option (T × T) :=
  match cells.position px py with
  | none => none
  | some (rangeIndex, azimuthIndex) =>
    if isValidCell rangeIndex azimuthIndex cells.diffLat (band.xSize - 1) (band.ySize - 1) then
      some (rangeIndex, azimuthIndex)
    else none

/-- The accepted positions of a tile. -/
def acceptedCells (t : Rectangle) : List (T × T) :=
  (tilePixels t).filterMap fun p => acceptedCell band cells p.1 p.2

/-- `SourceRectangeResult`. -/
structure SourceRectangleResult where
  minRange : Int
  maxRange : Int
  minAzimuth : Int
  maxAzimuth : Int

/-- `GetSourceRectangleKernel`: the box of the truncated positions. -/
def sourceRectangleResult (positions : List (T × T)) : SourceRectangleResult where
  minRange := (positions.map fun p => toInt p.1).foldl min 2147483647
  maxRange := (positions.map fun p => toInt p.1).foldl max (-2147483648)
  minAzimuth := (positions.map fun p => toInt p.2).foldl min 2147483647
  maxAzimuth := (positions.map fun p => toInt p.2).foldl max (-2147483648)

/-- `GetSourceRectangle`. -/
def getSourceRectangle (t : Rectangle) : Rectangle :=
  let result := sourceRectangleResult (acceptedCells band cells t)
  if result.maxAzimuth = -2147483648 then ⟨0, 0, 0, 0⟩
  else
    let margin := bilinearInterpolationMargin
    let xMin := max 0 (result.minRange - margin)
    let xMax := min band.xSize (result.maxRange + 2 * margin + 1)
    let yMin := max 0 (result.minAzimuth - margin)
    let yMax := min band.ySize (result.maxAzimuth + 2 * margin + 1)
    ⟨xMin, yMin, xMax - xMin, yMax - yMin⟩

/-- `AdjustResamplingIndex`. -/
def adjustResamplingIndex (index : ResamplingIndex T) (x0 y0 : Int) : ResamplingIndex T :=
  ⟨{ index.i with first := index.i.first - x0, second := index.i.second - x0 },
    { index.j with first := index.j.first - y0, second := index.j.second - y0 }⟩

/-- One sample: `values[y * width + x]`. -/
def readSample (values : List T) (width x y : Int) : Outcome T := do
  let row ← int32 (y * width)
  let index ← int32 (row + x)
  vectorIndex values index

/-- `GetSamples`. -/
def getSamples (values : List T) (width : Int) (index : ResamplingIndex T) :
    Outcome (Corners T × Bool) := do
  let v00 ← readSample values width index.i.first index.j.first
  let v01 ← readSample values width index.i.second index.j.first
  let v10 ← readSample values width index.i.first index.j.second
  let v11 ← readSample values width index.i.second index.j.second
  return (⟨v00, v01, v10, v11⟩, true)

/-- `source_image_width` and `source_image_height` of `TerrainCorrectionKernelArgs`. -/
structure TerrainCorrectionKernelArgs where
  sourceImageWidth : Int
  sourceImageHeight : Int

/-- `GetPixelValue`. -/
def getPixelValue (args : TerrainCorrectionKernelArgs) (sourceTile : Rectangle) (data : List T)
    (rangeIndex azimuthIndex : T) : Outcome T :=
  let index := computeIndex (rangeIndex + 1 / 2) (azimuthIndex + 1 / 2) args.sourceImageWidth
    args.sourceImageHeight
  resampleNoDem (getSamples data sourceTile.width)
    (adjustResamplingIndex index sourceTile.x sourceTile.y)

/-- `TerrainCorrectionKernel` on one pixel. -/
def terrainCorrectionKernel (args : TerrainCorrectionKernelArgs) (sourceTile : Rectangle)
    (data : List T) (targetNoDataValue : T) (px py : Int) : Outcome T :=
  match acceptedCell band cells px py with
  | none => return targetNoDataValue
  | some (rangeIndex, azimuthIndex) =>
    getPixelValue args sourceTile data rangeIndex azimuthIndex

/-- `CalculateTile` on one pixel: what it writes, if it writes the tile. -/
def calculateTile (targetNoDataValue : T) (t : Rectangle) (px py : Int) : Outcome (Option T) := do
  let rectangle := getSourceRectangle band cells t
  let sourceRectSz ← int32 (rectangle.width * rectangle.height)
  if sourceRectSz > 0 then
    let data := rowMajor rectangle.width rectangle.height fun x y =>
      band.pixel (rectangle.x + x) (rectangle.y + y)
    let args : TerrainCorrectionKernelArgs := {
      sourceImageWidth := band.xSize
      -- the height is taken from the width as well
      sourceImageHeight := band.xSize }
    let value ← terrainCorrectionKernel band cells args rectangle data targetNoDataValue px py
    return some value
  else
    return none

/-! ## Accepted positions -/

section Accepted

variable {band cells}

omit [FloorRing T] in
theorem isValidCell_iff {rangeIndex azimuthIndex : T} {diffLat srcMaxRange srcMaxAzimuth : Int} :
    isValidCell rangeIndex azimuthIndex diffLat srcMaxRange srcMaxAzimuth = true ↔
      (0 ≤ rangeIndex ∧ rangeIndex < srcMaxRange ∧ 0 < azimuthIndex ∧
        azimuthIndex < srcMaxAzimuth) ∧ diffLat < 5 := by
  unfold isValidCell
  split_ifs with hout
  · simp only [false_iff, not_and]
    rintro ⟨h1, h2, h3, h4⟩
    rcases hout with h | h | h | h
    · exact absurd h1 (not_le.mpr h)
    · exact absurd h2 (not_lt.mpr h)
    · exact absurd h3 (not_lt.mpr h)
    · exact absurd h4 (not_lt.mpr h)
  · simp only [not_or, not_lt, not_le, ge_iff_le] at hout
    rw [decide_eq_true_iff]
    exact ⟨fun h => ⟨hout, h⟩, fun h => h.2⟩

/-- What an accepted position is: strictly inside the last column and row. -/
structure Accepted (band : SourceBand T) (p : T × T) : Prop where
  range_nonneg : 0 ≤ p.1
  range_lt : ⌊p.1⌋ + 1 < band.xSize
  azimuth_pos : 0 < p.2
  azimuth_lt : ⌊p.2⌋ + 1 < band.ySize

theorem accepted_of_acceptedCell {px py : Int} {p : T × T}
    (h : acceptedCell band cells px py = some p) : Accepted band p := by
  unfold acceptedCell at h
  cases hpos : cells.position px py with
  | none => rw [hpos] at h; cases h
  | some q =>
    rw [hpos] at h
    dsimp only at h
    split_ifs at h with hvalid
    obtain rfl := Option.some.inj h
    obtain ⟨⟨h1, h2, h3, h4⟩, -⟩ := isValidCell_iff.mp hvalid
    have hrange := Int.floor_lt.mpr h2
    have hazimuth := Int.floor_lt.mpr h4
    exact ⟨h1, by dsimp only; omega, h3, by dsimp only; omega⟩

omit [FloorRing T] in
theorem mem_acceptedCells {t : Rectangle} {p : T × T} :
    p ∈ acceptedCells band cells t ↔
      ∃ px py, t.Contains px py ∧ acceptedCell band cells px py = some p := by
  simp only [acceptedCells, List.mem_filterMap, mem_tilePixels, Prod.exists]

theorem accepted_of_mem {t : Rectangle} {p : T × T} (hp : p ∈ acceptedCells band cells t) :
    Accepted band p := by
  obtain ⟨px, py, -, h⟩ := mem_acceptedCells.mp hp
  exact accepted_of_acceptedCell h

/-! ## The bounding box -/

theorem toInt_range {p : T × T} (h : Accepted band p) : toInt p.1 = ⌊p.1⌋ :=
  toInt_of_nonneg h.range_nonneg

theorem toInt_azimuth {p : T × T} (h : Accepted band p) : toInt p.2 = ⌊p.2⌋ :=
  toInt_of_nonneg (le_of_lt h.azimuth_pos)

/-- The box around the accepted positions of the tile. -/
structure Boxed (positions : List (T × T)) (result : SourceRectangleResult) : Prop where
  minRange_le : ∀ p ∈ positions, result.minRange ≤ ⌊p.1⌋
  le_maxRange : ∀ p ∈ positions, ⌊p.1⌋ ≤ result.maxRange
  le_minAzimuth : ∀ c, c ≤ result.minAzimuth ↔ c ≤ 2147483647 ∧ ∀ p ∈ positions, c ≤ ⌊p.2⌋
  le_maxAzimuth : ∀ p ∈ positions, ⌊p.2⌋ ≤ result.maxAzimuth

theorem boxed {positions : List (T × T)} (h : ∀ p ∈ positions, Accepted band p) :
    Boxed positions (sourceRectangleResult positions) where
  minRange_le p hp := by
    rw [← toInt_range (h p hp)]
    exact (le_foldl_min.mp (le_refl _)).2 _ (List.mem_map_of_mem hp)
  le_maxRange p hp := by
    rw [← toInt_range (h p hp)]
    exact (foldl_max_le.mp (le_refl _)).2 _ (List.mem_map_of_mem hp)
  le_minAzimuth c := by
    show c ≤ (positions.map fun p => toInt p.2).foldl min 2147483647 ↔ _
    rw [le_foldl_min, List.forall_mem_map]
    constructor
    · exact fun hc => ⟨hc.1, fun p hp => by rw [← toInt_azimuth (h p hp)]; exact hc.2 p hp⟩
    · exact fun hc => ⟨hc.1, fun p hp => by rw [toInt_azimuth (h p hp)]; exact hc.2 p hp⟩
  le_maxAzimuth p hp := by
    rw [← toInt_azimuth (h p hp)]
    exact (foldl_max_le.mp (le_refl _)).2 _ (List.mem_map_of_mem hp)

/-- The rectangle of a tile with an accepted position: it holds the cells of all of them, and
begins one row above the first. -/
structure HoldsCells (positions : List (T × T)) (r : Rectangle) : Prop where
  x_nonneg : 0 ≤ r.x
  columns : ∀ p ∈ positions, r.x ≤ ⌊p.1⌋ ∧ ⌊p.1⌋ + 1 < r.x + r.width
  rows : ∀ p ∈ positions, r.y ≤ ⌊p.2⌋ ∧ ⌊p.2⌋ + 1 < r.y + r.height
  y_le_iff : ∀ w, 1 ≤ w → (r.y ≤ w - 1 ↔ ∃ p ∈ positions, ⌊p.2⌋ ≤ w)

theorem holdsCells_getSourceRectangle {t : Rectangle} (hne : acceptedCells band cells t ≠ []) :
    HoldsCells (acceptedCells band cells t) (getSourceRectangle band cells t) := by
  have haccepted : ∀ p ∈ acceptedCells band cells t, Accepted band p :=
    fun p hp => accepted_of_mem hp
  have hbox := boxed haccepted
  obtain ⟨q, hq⟩ := List.exists_mem_of_ne_nil _ hne
  -- a position was reduced, so the maximum left its start value
  have hfound : (sourceRectangleResult (acceptedCells band cells t)).maxAzimuth ≠ -2147483648 := by
    have hpos := Int.floor_nonneg.mpr (le_of_lt (haccepted q hq).azimuth_pos)
    have hle := hbox.le_maxAzimuth q hq
    omega
  unfold getSourceRectangle bilinearInterpolationMargin
  rw [if_neg hfound]
  exact {
    x_nonneg := by
      show 0 ≤ max 0 _
      omega
    columns := fun p hp => by
      have h1 := hbox.minRange_le p hp
      have h2 := hbox.le_maxRange p hp
      have h3 := (haccepted p hp).range_lt
      have h4 := Int.floor_nonneg.mpr (haccepted p hp).range_nonneg
      dsimp only
      omega
    rows := fun p hp => by
      have h1 := ((hbox.le_minAzimuth _).mp (le_refl _)).2 p hp
      have h2 := hbox.le_maxAzimuth p hp
      have h3 := (haccepted p hp).azimuth_lt
      have h4 := Int.floor_nonneg.mpr (le_of_lt (haccepted p hp).azimuth_pos)
      dsimp only
      omega
    y_le_iff := fun w hw => by
      have hmin := hbox.le_minAzimuth (w + 1)
      have hlast := (haccepted q hq).azimuth_lt
      have hfit := band.y_fits
      constructor
      · intro hy
        apply Decidable.byContradiction
        intro hno
        have hall : ∀ p ∈ acceptedCells band cells t, w + 1 ≤ ⌊p.2⌋ := by
          intro p hp
          have hp' : ¬ ⌊p.2⌋ ≤ w := fun hle => hno ⟨p, hp, hle⟩
          omega
        have hge := hmin.mpr ⟨by have := hall q hq; omega, hall⟩
        dsimp only at hy
        omega
      · intro hex
        obtain ⟨p, hp, hle⟩ := hex
        have h1 := ((hbox.le_minAzimuth _).mp (le_refl _)).2 p hp
        dsimp only
        omega }

end Accepted

/-! ## Reading the rectangle -/

section Values

variable {band cells}

/-- The part of the band in the rectangle, as `RasterIO` reads it. -/
def sourceBuffer (band : SourceBand T) (r : Rectangle) : List T :=
  rowMajor r.width r.height fun x y => band.pixel (r.x + x) (r.y + y)

omit [Field T] [LinearOrder T] [FloorRing T] in
theorem readSample_of_mem {r : Rectangle} (hfits : Fits 32 (r.width * r.height)) {x y : Int}
    (hx : r.x ≤ x) (hx' : x < r.x + r.width) (hy : r.y ≤ y) (hy' : y < r.y + r.height) :
    readSample (sourceBuffer band r) r.width (x - r.x) (y - r.y) = .ok (band.pixel x y) := by
  have harea := (fits32_iff.mp hfits).2
  -- the index lies in the last row at most
  have hlast : (y - r.y) * r.width ≤ (r.height - 1) * r.width :=
    Int.mul_le_mul_of_nonneg_right (by omega) (by omega)
  have hrow : 0 ≤ (y - r.y) * r.width := Int.mul_nonneg (by omega) (by omega)
  rw [Int.sub_mul r.height, Int.one_mul, Int.mul_comm r.height] at hlast
  unfold readSample
  rw [int32_of_bounds (by omega) (by omega), Outcome.ok_bind,
    int32_of_bounds (by omega) (by omega), Outcome.ok_bind, Int.mul_comm (y - r.y),
    sourceBuffer, vectorIndex_rowMajor (by omega) (by omega) (by omega) (by omega)]
  rw [show r.x + (x - r.x) = x by omega, show r.y + (y - r.y) = y by omega]

omit [Field T] [LinearOrder T] [FloorRing T] in
/-- A row before the rectangle. -/
theorem readSample_of_neg {values : List T} {width x y : Int} (hx : x < width) (hy : y < 0)
    (hw : 0 ≤ width) : readSample values width x y = .undefined := by
  have hrow : y * width ≤ -1 * width := Int.mul_le_mul_of_nonneg_right (by omega) hw
  unfold readSample int32
  split_ifs
  · rw [Outcome.ok_bind]
    split_ifs
    · rw [Outcome.ok_bind, vectorIndex, if_neg (by omega)]
    · rfl
  · rfl

omit [Field T] [LinearOrder T] [FloorRing T] in
theorem getSamples_of_mem {r : Rectangle} (hfits : Fits 32 (r.width * r.height))
    {x0 x1 y0 y1 : Int} {ki kj : T} (hx0 : r.x ≤ x0 ∧ x0 < r.x + r.width)
    (hx1 : r.x ≤ x1 ∧ x1 < r.x + r.width) (hy0 : r.y ≤ y0 ∧ y0 < r.y + r.height)
    (hy1 : r.y ≤ y1 ∧ y1 < r.y + r.height) :
    getSamples (sourceBuffer band r) r.width
      ⟨⟨x0 - r.x, x1 - r.x, ki⟩, ⟨y0 - r.y, y1 - r.y, kj⟩⟩ =
    .ok (⟨band.pixel x0 y0, band.pixel x1 y0, band.pixel x0 y1, band.pixel x1 y1⟩, true) := by
  simp only [getSamples, readSample_of_mem hfits hx0.1 hx0.2 hy0.1 hy0.2,
    readSample_of_mem hfits hx1.1 hx1.2 hy0.1 hy0.2,
    readSample_of_mem hfits hx0.1 hx0.2 hy1.1 hy1.2,
    readSample_of_mem hfits hx1.1 hx1.2 hy1.1 hy1.2, Outcome.ok_bind, Outcome.pure_eq]

variable [IsStrictOrderedRing T]

/-- The arguments `CalculateTile` passes: the width of the band, twice. -/
def tileArgs (band : SourceBand T) : TerrainCorrectionKernelArgs where
  sourceImageWidth := band.xSize
  sourceImageHeight := band.xSize

variable {positions : List (T × T)} {r : Rectangle} {p : T × T}

/-- The columns are never clamped, and the rows not before the width of the band. -/
theorem getPixelValue_of_lt (hr : HoldsCells positions r) (hp : p ∈ positions)
    (haccepted : Accepted band p) (hfits : Fits 32 (r.width * r.height))
    (hrow : ⌊p.2⌋ + 1 < band.xSize) :
    getPixelValue (tileArgs band) r (sourceBuffer band r) p.1 p.2 =
      .ok (bilinear band.pixel p.1 p.2) := by
  have hcol := hr.columns p hp
  have hrows := hr.rows p hp
  have hlt := haccepted.range_lt
  have hx := Int.floor_nonneg.mpr haccepted.range_nonneg
  have hy := Int.floor_nonneg.mpr (le_of_lt haccepted.azimuth_pos)
  simp only [getPixelValue, tileArgs, computeIndex_add_half, adjustResamplingIndex]
  rw [clampTo_of_mem hx (by omega), clampTo_of_mem (by omega) (by omega),
    clampTo_of_mem hy (by omega), clampTo_of_mem (by omega) (by omega), resampleNoDem,
    getSamples_of_mem hfits (by omega) (by omega) (by omega) (by omega)]
  rfl

/-- Rows from the width of the band on are clamped to the last row below it: the value is that
row's, if the rectangle has it. -/
theorem getPixelValue_of_ge (hr : HoldsCells positions r) (hp : p ∈ positions)
    (haccepted : Accepted band p) (hfits : Fits 32 (r.width * r.height))
    (hrow : band.xSize ≤ ⌊p.2⌋ + 1) :
    getPixelValue (tileArgs band) r (sourceBuffer band r) p.1 p.2 =
      if r.y ≤ band.xSize - 1 then .ok (bilinear band.pixel p.1 ((band.xSize - 1 : Int) : T))
      else .undefined := by
  have hcol := hr.columns p hp
  have hrows := hr.rows p hp
  have hlt := haccepted.range_lt
  have hx := Int.floor_nonneg.mpr haccepted.range_nonneg
  have hclamp : ∀ n, band.xSize - 1 ≤ n → clampTo 0 (band.xSize - 1) n = band.xSize - 1 := by
    intro n hn
    unfold clampTo
    split_ifs <;> omega
  simp only [getPixelValue, tileArgs, computeIndex_add_half, adjustResamplingIndex]
  rw [clampTo_of_mem hx (by omega), clampTo_of_mem (by omega) (by omega),
    hclamp _ (by omega), hclamp _ (by omega)]
  split_ifs with hy
  · rw [resampleNoDem, getSamples_of_mem hfits (by omega) (by omega) (by omega) (by omega)]
    refine congrArg Outcome.ok ?_
    -- both rows are the same one, so its weight is one
    simp only [Corners.blend, bilinear, Int.floor_intCast, Int.fract_intCast]
    ring
  -- the first sample already lies before the rectangle
  · rw [resampleNoDem, getSamples]
    dsimp only
    rw [readSample_of_neg (by omega) (by omega) (by omega)]
    rfl

/-! ## A tile -/

variable (band cells) in
/-- Every accepted position of the tile gets the value of the whole image there. -/
def SamplesSource (targetNoDataValue : T) (t : Rectangle) : Prop :=
  ∀ px py p, t.Contains px py → acceptedCell band cells px py = some p →
    calculateTile band cells targetNoDataValue t px py = .ok (some (bilinear band.pixel p.1 p.2))

variable (band cells) in
/-- The azimuth is at most the width less one; or the tile has a position no later than row
`xSize`, and the image happens to be at the position what it is in row `xSize - 1`. -/
def WithinWidth (t : Rectangle) (p : T × T) : Prop :=
  p.2 ≤ ((band.xSize - 1 : Int) : T) ∨
    (∃ q ∈ acceptedCells band cells t, ⌊q.2⌋ ≤ band.xSize) ∧
      bilinear band.pixel p.1 p.2 = bilinear band.pixel p.1 ((band.xSize - 1 : Int) : T)

omit [IsStrictOrderedRing T] in
theorem calculateTile_of_fits {t : Rectangle} {px py : Int} {targetNoDataValue : T}
    (hr : HoldsCells (acceptedCells band cells t) (getSourceRectangle band cells t))
    (hpix : t.Contains px py) (hcell : acceptedCell band cells px py = some p)
    (hfits : Fits 32 ((getSourceRectangle band cells t).width *
      (getSourceRectangle band cells t).height)) :
    calculateTile band cells targetNoDataValue t px py = (do
      let value ← getPixelValue (tileArgs band) (getSourceRectangle band cells t)
        (sourceBuffer band (getSourceRectangle band cells t)) p.1 p.2
      return some value) := by
  have hp : p ∈ acceptedCells band cells t := mem_acceptedCells.mpr ⟨px, py, hpix, hcell⟩
  obtain ⟨hx, hx'⟩ := hr.columns p hp
  obtain ⟨hy, hy'⟩ := hr.rows p hp
  have hpos : (getSourceRectangle band cells t).width *
      (getSourceRectangle band cells t).height > 0 :=
    Int.mul_pos (by omega) (by omega)
  unfold calculateTile
  dsimp only
  rw [int32_of_fits hfits, Outcome.ok_bind, if_pos hpos, terrainCorrectionKernel, hcell]
  rfl

theorem withinWidth_iff {t : Rectangle}
    (hr : HoldsCells (acceptedCells band cells t) (getSourceRectangle band cells t))
    (hp : p ∈ acceptedCells band cells t)
    (hfits : Fits 32 ((getSourceRectangle band cells t).width *
      (getSourceRectangle band cells t).height)) :
    getPixelValue (tileArgs band) (getSourceRectangle band cells t)
        (sourceBuffer band (getSourceRectangle band cells t)) p.1 p.2 =
      .ok (bilinear band.pixel p.1 p.2) ↔ WithinWidth band cells t p := by
  have haccepted := accepted_of_mem hp
  rcases Int.lt_or_le (⌊p.2⌋ + 1) band.xSize with hrow | hrow
  -- a row before the last one of the width
  · rw [getPixelValue_of_lt hr hp haccepted hfits hrow]
    have hlt : p.2 < ((band.xSize - 1 : Int) : T) := Int.floor_lt.mp (by omega)
    exact ⟨fun _ => .inl (le_of_lt hlt), fun _ => rfl⟩
  · have hsize : 1 ≤ band.xSize := by
      have h1 := haccepted.range_lt
      have h2 := Int.floor_nonneg.mpr haccepted.range_nonneg
      omega
    have hge : ((band.xSize - 1 : Int) : T) ≤ p.2 := Int.le_floor.mp (by omega)
    rw [getPixelValue_of_ge hr hp haccepted hfits hrow]
    split_ifs with hy
    · have hex := (hr.y_le_iff _ hsize).mp hy
      rw [Outcome.ok.injEq]
      constructor
      · exact fun h => .inr ⟨hex, h.symm⟩
      · intro h
        rcases h with hle | h
        · rw [le_antisymm hle hge]
        · exact h.2.symm
    -- no row of the width is in the rectangle
    · refine ⟨fun h => (nomatch h), fun h => absurd ?_ hy⟩
      rcases h with hle | h
      · have hfloor : ⌊p.2⌋ ≤ band.xSize - 1 := by
          rw [le_antisymm hle hge, Int.floor_intCast]
        exact (hr.y_le_iff _ hsize).mpr ⟨p, hp, by omega⟩
      · exact (hr.y_le_iff _ hsize).mpr h.1

/-- **Sampling the source.** A tile samples the source image exactly when its rectangle has fewer
than `2 ^ 31` pixels and none of its positions lies past the width, other than by coincidence. -/
theorem samplesSource_iff (band : SourceBand T) (cells : TargetCells T) (targetNoDataValue : T)
    (t : Rectangle) :
    SamplesSource band cells targetNoDataValue t ↔
      ∀ p ∈ acceptedCells band cells t,
        Fits 32 ((getSourceRectangle band cells t).width *
          (getSourceRectangle band cells t).height) ∧ WithinWidth band cells t p := by
  constructor
  · intro h p hp
    have hr := holdsCells_getSourceRectangle (List.ne_nil_of_mem hp)
    obtain ⟨px, py, hpix, hcell⟩ := mem_acceptedCells.mp hp
    have hvalue := h px py p hpix hcell
    have hfits : Fits 32 ((getSourceRectangle band cells t).width *
        (getSourceRectangle band cells t).height) := by
      unfold calculateTile at hvalue
      obtain ⟨_, hsize, -⟩ := Outcome.bind_eq_ok.mp hvalue
      exact (int32_eq_ok.mp hsize).1
    refine ⟨hfits, (withinWidth_iff hr hp hfits).mp ?_⟩
    rw [calculateTile_of_fits hr hpix hcell hfits] at hvalue
    obtain ⟨value, hget, hsome⟩ := Outcome.bind_eq_ok.mp hvalue
    rw [hget, Option.some.inj (Outcome.ok.inj hsome)]
  · intro h px py p hpix hcell
    have hp : p ∈ acceptedCells band cells t := mem_acceptedCells.mpr ⟨px, py, hpix, hcell⟩
    have hr := holdsCells_getSourceRectangle (List.ne_nil_of_mem hp)
    obtain ⟨hfits, hwidth⟩ := h p hp
    rw [calculateTile_of_fits hr hpix hcell hfits, (withinWidth_iff hr hp hfits).mpr hwidth]
    rfl

end Values

end Kernels

/-! ## A high image and a wide one -/

/-- An image of this size whose value is the row. -/
def rowImage (xSize ySize : Int) (hx : xSize ≤ 2147483647) (hy : ySize ≤ 2147483647) :
    SourceBand ℚ where
  xSize
  ySize
  pixel _ y := y
  x_fits := hx
  y_fits := hy

def highImage : SourceBand ℚ := rowImage 2 8 (by decide) (by decide)

def wideImage : SourceBand ℚ := rowImage 8 2 (by decide) (by decide)

/-- The pixel `0, 0` lies at this position. -/
def oneCell (rangeIndex azimuthIndex : ℚ) : TargetCells ℚ where
  position px py := if px = 0 ∧ py = 0 then some (rangeIndex, azimuthIndex) else none
  diffLat := 0

theorem samplesSource_wideImage :
    SamplesSource wideImage (oneCell (9 / 2) (1 / 2)) 0 (Rectangle.unit 0 0) := by
  have hcells : acceptedCells wideImage (oneCell (9 / 2) (1 / 2)) (Rectangle.unit 0 0) =
      [(9 / 2, 1 / 2)] := by
    decide +kernel
  apply (samplesSource_iff _ _ _ _).mpr
  intro p hp
  refine ⟨by decide +kernel, ?_⟩
  rw [hcells] at hp
  obtain rfl := List.mem_singleton.mp hp
  left
  decide +kernel

/-- Row `4` of an image of two columns: the sample is read before the buffer. -/
theorem not_samplesSource_highImage :
    ¬ SamplesSource highImage (oneCell (1 / 2) (9 / 2)) 0 (Rectangle.unit 0 0) := by
  intro h
  have hread := h 0 0 (1 / 2, 9 / 2) (by decide) (by decide +kernel)
  revert hread
  decide +kernel

end Alus.TerrainCorrection
