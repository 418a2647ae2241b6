import Mathlib.Data.Rat.Floor
import Alus.Lib.Cells
import Alus.Lib.Rounding
import Alus.Lib.Sampling

/-!
# Subsets of tie point grids

A tie point grid (`tie_point_grid.cc`) holds the values of a quantity at regularly spaced pixels
and interpolates between them. `CreateSubset` cuts the part out of it that a region of the raster
needs, and counts positions from the region and in steps of its sub-sampling.

What happens along one axis is a definition of its own, used for both. Positions and values are
exact numbers. The grids have no angle discontinuity.
-/

namespace Alus.SnapEngine

open Alus.Lib

section Grid

variable {T : Type} [Field T] [LinearOrder T] [FloorRing T]

/-- One axis of a grid: `grid_width_`, `offset_x_` and `sub_sampling_x_`, or those along `y`,
with what the constructor asserts of them. -/
structure GridAxis (T : Type) [Field T] [LinearOrder T] where
  size : Int
  offset : T
  subSampling : T
  two_le_size : 2 ≤ size
  subSampling_pos : 0 < subSampling

/-- A grid without its tie points, and the size of the product's scene. -/
structure GridGeometry (T : Type) [Field T] [LinearOrder T] where
  name : String
  x : GridAxis T
  y : GridAxis T
  sceneRaster : Option (Int × Int)

/-- `TiePointGrid`, with the length the constructor asserts. -/
structure TiePointGrid (T : Type) [Field T] [LinearOrder T] extends GridGeometry T where
  tiePoints : List T
  length_tiePoints : (tiePoints.length : Int) = x.size * y.size

omit [FloorRing T] in
theorem GridGeometry.length_image (g : GridGeometry T) (image : Int → Int → T) :
    ((rowMajor g.x.size g.y.size image).length : Int) = g.x.size * g.y.size :=
  length_rowMajor (by have := g.x.two_le_size; omega) (by have := g.y.two_le_size; omega) image

/-- The constructor, outside a product. -/
def TiePointGrid.create (name : String) (gridWidth gridHeight : Int)
    (offsetX offsetY subSamplingX subSamplingY : T) (tiePoints : List T) :
    Outcome (TiePointGrid T) :=
  if h : (2 ≤ gridWidth ∧ 0 < subSamplingX) ∧ (2 ≤ gridHeight ∧ 0 < subSamplingY) ∧
      (tiePoints.length : Int) = gridWidth * gridHeight then
    .ok ⟨⟨name, ⟨gridWidth, offsetX, subSamplingX, h.1.1, h.1.2⟩,
      ⟨gridHeight, offsetY, subSamplingY, h.2.1.1, h.2.1.2⟩, none⟩, tiePoints, h.2.2⟩
  else .throws

/-! ## Values -/

/-- `MathUtils::FloorAndCrop`. -/
def floorAndCrop (x : T) (min max : Int) : Int := clampTo min max ⌊x⌋

/-- `MathUtils::Interpolate2D`. -/
def interpolate2D (wi wj x00 x10 x01 x11 : T) : T :=
  x00 + wi * (x10 - x00) + wj * (x01 - x00) + wi * wj * (x11 + x00 - x01 - x10)

namespace GridAxis

/-- `fi`: the position of a pixel in the grid. -/
def index (axis : GridAxis T) (x : T) : T := (x - axis.offset) / axis.subSampling

/-- `i`: the cell of the grid. -/
def cell (axis : GridAxis T) (x : T) : Int := floorAndCrop (axis.index x) 0 (axis.size - 2)

/-- `GetRasterWidth`, outside a product. -/
def rasterSize (axis : GridAxis T) : Int :=
  stdRound (((axis.size - 1 : Int) : T) * axis.subSampling + 1)

end GridAxis

/-- `Interpolate`. -/
def TiePointGrid.interpolate (grid : TiePointGrid T) (wi wj : T) (i0 j0 : Int) : Outcome T := do
  let w := grid.x.size
  let i1 := i0 + 1
  let j1 := j0 + 1
  let x00 ← vectorAt grid.tiePoints (i0 + j0 * w)
  let x10 ← vectorAt grid.tiePoints (i1 + j0 * w)
  let x01 ← vectorAt grid.tiePoints (i0 + j1 * w)
  let x11 ← vectorAt grid.tiePoints (i1 + j1 * w)
  return interpolate2D wi wj x00 x10 x01 x11

/-- `GetPixelDouble`. -/
def TiePointGrid.getPixelDouble (grid : TiePointGrid T) (x y : T) : Outcome T :=
  let fi := grid.x.index x
  let fj := grid.y.index y
  let i := grid.x.cell x
  let j := grid.y.cell y
  grid.interpolate (fi - i) (fj - j) i j

/-! ## Subsets -/

/-- `custom::Rectangle`. -/
structure Rectangle where
  x : Int
  y : Int
  width : Int
  height : Int
  deriving DecidableEq, Repr

/-- `ProductSubsetDef`, with what `SetSubSampling` demands. -/
structure ProductSubsetDef where
  subSamplingX : Int
  subSamplingY : Int
  regionMap : List (String × Rectangle)
  region : Option Rectangle
  one_le_x : 1 ≤ subSamplingX
  one_le_y : 1 ≤ subSamplingY

namespace GridGeometry

/-- `GetRasterWidth` and `GetRasterHeight`. -/
def raster (g : GridGeometry T) : Rectangle :=
  match g.sceneRaster with
  | some (width, height) => ⟨0, 0, width, height⟩
  | none => ⟨0, 0, g.x.rasterSize, g.y.rasterSize⟩

/-- The region of a subset, that of the grid's own name first. -/
def subsetRegion (g : GridGeometry T) : Option ProductSubsetDef → Rectangle
  | none => g.raster
  | some subsetDef =>
    match subsetDef.regionMap.lookup g.name with
    | some region => region
    | none => subsetDef.region.getD g.raster

end GridGeometry

/-- The steps along `x` and `y`. -/
def subsetStep : Option ProductSubsetDef → Int × Int
  | none => (1, 1)
  | some subsetDef => (subsetDef.subSamplingX, subsetDef.subSamplingY)

/-- What a subset makes of one axis. -/
structure AxisSubset (T : Type) where
  subSampling : T
  offset : T
  dataOffset : Int
  size : Int

/-- The computations of `CreateSubset` along one axis. -/
def subsetAxis (src : GridAxis T) (subsetOffset subsetSize subsetStep : Int) : AxisSubset T :=
  let newSubSampling := src.subSampling / subsetStep
  let newGridOffset := (src.offset - 1 / 2 - subsetOffset) / subsetStep + 1 / 2
  let newOffset := fmod newGridOffset newSubSampling
  let diff := newOffset - newGridOffset
  let dataOffset := if diff < 0 then 0 else stdRound (diff / newSubSampling)
  -- the size does not count the part of a cell before the region
  let newSize := ⌈(subsetSize : T) / src.subSampling⌉ + 2
  let newSize := if dataOffset + newSize > src.size then src.size - dataOffset else newSize
  ⟨newSubSampling, newOffset, dataOffset, newSize⟩

/-- The axes of a subset. -/
def GridGeometry.subsetX (g : GridGeometry T) (subsetDef : Option ProductSubsetDef) :
    AxisSubset T :=
  let region := g.subsetRegion subsetDef
  subsetAxis g.x region.x region.width (subsetStep subsetDef).1

def GridGeometry.subsetY (g : GridGeometry T) (subsetDef : Option ProductSubsetDef) :
    AxisSubset T :=
  let region := g.subsetRegion subsetDef
  subsetAxis g.y region.y region.height (subsetStep subsetDef).2

/-- `std::copy` of so many values from a position of the array. -/
def copyFrom (array : List T) (srcPos count : Int) : Outcome (List T) :=
  if 0 ≤ srcPos ∧ srcPos + count ≤ array.length then
    .ok ((array.drop srcPos.toNat).take count.toNat)
  else .undefined

/-- `CreateSubset`. A vector of negative size throws. -/
def createSubset (source : TiePointGrid T) (subsetDef : Option ProductSubsetDef) :
    Outcome (TiePointGrid T) := do
  let x := source.subsetX subsetDef
  let y := source.subsetY subsetDef
  Outcome.require (0 ≤ x.size * y.size)
  let rows ← Outcome.collect ((intRange 0 y.size).map fun row =>
    copyFrom source.tiePoints (source.x.size * (y.dataOffset + row) + x.dataOffset) x.size)
  TiePointGrid.create source.name x.size y.size x.offset y.offset x.subSampling y.subSampling
    rows.flatten

/-! ## The value at a position -/

section Values

/-- The tie point in column `a` of row `b`. -/
def TiePointGrid.node (grid : TiePointGrid T) (a b : Int) : T :=
  (grid.tiePoints[(a + b * grid.x.size).toNat]?).getD 0

omit [FloorRing T] in
theorem TiePointGrid.vectorAt_tiePoints (grid : TiePointGrid T) {a b : Int} (ha : 0 ≤ a)
    (ha_lt : a < grid.x.size) (hb : 0 ≤ b) (hb_lt : b < grid.y.size) :
    vectorAt grid.tiePoints (a + b * grid.x.size) = .ok (grid.node a b) := by
  have hpos : 0 ≤ a + b * grid.x.size := by
    have := Int.mul_nonneg hb (show 0 ≤ grid.x.size by omega)
    omega
  have hlt : a + b * grid.x.size < grid.tiePoints.length := by
    have hrow : (b + 1) * grid.x.size ≤ grid.y.size * grid.x.size :=
      Int.mul_le_mul_of_nonneg_right (by omega) (by omega)
    rw [grid.length_tiePoints, Int.mul_comm grid.x.size]
    rw [Int.add_mul, Int.one_mul] at hrow
    omega
  have hn : (a + b * grid.x.size).toNat < grid.tiePoints.length := by omega
  unfold vectorAt node
  rw [if_pos hpos, List.getElem?_eq_getElem hn]
  rfl

theorem GridAxis.cell_mem (axis : GridAxis T) (x : T) :
    0 ≤ axis.cell x ∧ axis.cell x ≤ axis.size - 2 := by
  have hsize := axis.two_le_size
  exact clampTo_mem (by omega) _

/-- The value at a position is on the line between two lines. -/
theorem TiePointGrid.getPixelDouble_eq (grid : TiePointGrid T) (x y : T) :
    grid.getPixelDouble x y =
      .ok (cellValue (fun a => cellValue (grid.node a) (grid.y.cell y) (grid.y.index y))
        (grid.x.cell x) (grid.x.index x)) := by
  obtain ⟨hi, hi_le⟩ := grid.x.cell_mem x
  obtain ⟨hj, hj_le⟩ := grid.y.cell_mem y
  unfold getPixelDouble interpolate
  have hread : ∀ a b, 0 ≤ a → a ≤ grid.x.size - 1 → 0 ≤ b → b ≤ grid.y.size - 1 →
      vectorAt grid.tiePoints (a + b * grid.x.size) = .ok (grid.node a b) :=
    fun a b ha ha_le hb hb_le => grid.vectorAt_tiePoints ha (by omega) hb (by omega)
  simp only [hread (grid.x.cell x) (grid.y.cell y) hi (by omega) hj (by omega),
    hread (grid.x.cell x + 1) (grid.y.cell y) (by omega) (by omega) hj (by omega),
    hread (grid.x.cell x) (grid.y.cell y + 1) hi (by omega) (by omega) (by omega),
    hread (grid.x.cell x + 1) (grid.y.cell y + 1) (by omega) (by omega) (by omega) (by omega),
    Outcome.ok_bind, Outcome.pure_eq]
  refine congrArg Outcome.ok ?_
  unfold interpolate2D cellValue
  ring

end Values

/-! ## One axis of a subset -/

section Axis

variable {src : GridAxis T} {subsetOffset subsetSize step : Int}

/-- The position in the source of a position in the subset. -/
def sourcePosition (subsetOffset step : Int) (x : T) : T :=
  (x - 1 / 2) * step + 1 / 2 + subsetOffset

/-- The positions from the centre of a subset's first pixel to that of its last, which is
`(subsetSize - 1) / step` as `GetSceneRasterSize` counts them. -/
def InSubset (subsetSize step : Int) (x : T) : Prop :=
  0 < subsetSize ∧ 1 / 2 ≤ x ∧ x ≤ (((subsetSize - 1) / step : Int) : T) + 1 / 2

/-- The whole cells of the source before the region. -/
def GridAxis.cellsBefore (src : GridAxis T) (subsetOffset step : Int) : Int :=
  max 0 ⌊src.index (sourcePosition subsetOffset step (0 : T))⌋

/-- The region starts less than one cell before the grid, and the tie points that a subset takes
reach to the last of the source, or to the last pixel of the region. -/
def GridAxis.Reaches (src : GridAxis T) (subsetOffset subsetSize step : Int) : Prop :=
  -1 < src.index (sourcePosition subsetOffset step (0 : T)) ∧
    (src.size ≤ src.cellsBefore subsetOffset step + (⌈(subsetSize : T) / src.subSampling⌉ + 2) ∨
      src.index (sourcePosition subsetOffset step
          ((((subsetSize - 1) / step : Int) : T) + 1 / 2)) ≤
        (src.cellsBefore subsetOffset step + (⌈(subsetSize : T) / src.subSampling⌉ + 1) : Int))

variable [IsStrictOrderedRing T]

theorem index_sourcePosition (src : GridAxis T) (hstep : 1 ≤ step) (x : T) :
    src.index (sourcePosition subsetOffset step x) =
      (x - ((src.offset - 1 / 2 - subsetOffset) / step + 1 / 2)) / (src.subSampling / step) := by
  have hpos : (0 : T) < step := by exact_mod_cast hstep
  have hsub := src.subSampling_pos
  unfold GridAxis.index sourcePosition
  field_simp
  ring

/-- The new offset is the old one, less a whole number of cells. -/
theorem subsetAxis_offset (src : GridAxis T) (subsetOffset subsetSize : Int) (hstep : 1 ≤ step) :
    (subsetAxis src subsetOffset subsetSize step).offset =
      (src.offset - 1 / 2 - subsetOffset) / step + 1 / 2 -
        (toInt (-src.index (sourcePosition subsetOffset step (0 : T))) : T) *
          (src.subSampling / step) := by
  rw [index_sourcePosition src hstep, zero_sub, neg_div, neg_neg]
  rfl

/-- The tie points dropped before the first. -/
theorem subsetAxis_dataOffset (src : GridAxis T) (subsetOffset subsetSize : Int)
    (hstep : 1 ≤ step) :
    (subsetAxis src subsetOffset subsetSize step).dataOffset =
      src.cellsBefore subsetOffset step := by
  have hspacing : 0 < src.subSampling / step :=
    div_pos src.subSampling_pos (by exact_mod_cast hstep)
  have hoffset := subsetAxis_offset src subsetOffset subsetSize hstep
  unfold GridAxis.cellsBefore
  rw [← max_neg_toInt_neg]
  generalize toInt (-src.index (sourcePosition subsetOffset step (0 : T))) = q at hoffset ⊢
  have hdiff : (subsetAxis src subsetOffset subsetSize step).offset -
      ((src.offset - 1 / 2 - subsetOffset) / step + 1 / 2) =
        ((-q : Int) : T) * (src.subSampling / step) := by
    rw [hoffset]
    push_cast
    ring
  have hdata : (subsetAxis src subsetOffset subsetSize step).dataOffset =
      if ((-q : Int) : T) * (src.subSampling / step) < 0 then 0
      else stdRound (((-q : Int) : T) * (src.subSampling / step) / (src.subSampling / step)) := by
    rw [← hdiff]
    rfl
  rw [hdata, mul_div_cancel_right₀ _ hspacing.ne', stdRound_intCast]
  split
  · next hneg =>
    have hq : ((-q : Int) : T) < 0 := neg_of_mul_neg_left hneg hspacing.le
    have hq : -q < 0 := by exact_mod_cast hq
    omega
  · next hnonneg =>
    have hq : ¬ ((-q : Int) : T) < 0 := fun hlt => hnonneg (mul_neg_of_neg_of_pos hlt hspacing)
    have hq : ¬ -q < 0 := fun hlt => hq (by exact_mod_cast hlt)
    omega

theorem subsetAxis_size (src : GridAxis T) (hstep : 1 ≤ step) :
    (subsetAxis src subsetOffset subsetSize step).size =
      min (src.size - src.cellsBefore subsetOffset step)
        (⌈(subsetSize : T) / src.subSampling⌉ + 2) := by
  rw [← subsetAxis_dataOffset src subsetOffset subsetSize hstep]
  unfold subsetAxis
  simp only
  split <;> omega

/-- The axis that a grid gets from these computations. -/
structure AxisSubset.Gives (a : AxisSubset T) (axis : GridAxis T) : Prop where
  size : axis.size = a.size
  offset : axis.offset = a.offset
  subSampling : axis.subSampling = a.subSampling

/-- A position in the subset's grid is one in the source's, less a whole number of cells. -/
theorem AxisSubset.Gives.index_eq (hstep : 1 ≤ step) {axis : GridAxis T}
    (h : (subsetAxis src subsetOffset subsetSize step).Gives axis) (x : T) :
    axis.index x = src.index (sourcePosition subsetOffset step x) +
      toInt (-src.index (sourcePosition subsetOffset step (0 : T))) := by
  have hspacing : 0 < src.subSampling / step :=
    div_pos src.subSampling_pos (by exact_mod_cast hstep)
  have hsub : axis.subSampling = src.subSampling / step := h.subSampling
  show (x - axis.offset) / axis.subSampling = _
  rw [h.offset, hsub, subsetAxis_offset src _ _ hstep, index_sourcePosition src hstep x]
  generalize toInt (-src.index (sourcePosition subsetOffset step (0 : T))) = q
  rw [div_add' _ _ _ hspacing.ne']
  congr 1
  ring

/-- A region that starts less than a cell before the grid: the cells before it are what was
taken off. -/
theorem cellsBefore_eq (src : GridAxis T)
    (h : -1 < src.index (sourcePosition subsetOffset step (0 : T))) :
    src.cellsBefore subsetOffset step =
      -toInt (-src.index (sourcePosition subsetOffset step (0 : T))) := by
  have hq : ¬ 0 < toInt (-src.index (sourcePosition subsetOffset step (0 : T))) := by
    rw [toInt_pos_iff, not_le]
    linarith
  unfold GridAxis.cellsBefore
  rw [← max_neg_toInt_neg]
  omega

theorem index_sourcePosition_mono (src : GridAxis T) (hstep : 1 ≤ step) {x x' : T} (h : x ≤ x') :
    src.index (sourcePosition subsetOffset step x) ≤
      src.index (sourcePosition subsetOffset step x') := by
  have hspacing : 0 < src.subSampling / step :=
    div_pos src.subSampling_pos (by exact_mod_cast hstep)
  rw [index_sourcePosition src hstep, index_sourcePosition src hstep]
  gcongr

/-- Where the positions of the subset are those of the source, so are the cells before they are
clamped. -/
theorem cell_sourcePosition {axis : GridAxis T} {x : T}
    (hshift : src.index (sourcePosition subsetOffset step x) =
      axis.index x + src.cellsBefore subsetOffset step) :
    src.cell (sourcePosition subsetOffset step x) =
      clampTo 0 (src.size - 2) (⌊axis.index x⌋ + src.cellsBefore subsetOffset step) := by
  unfold GridAxis.cell floorAndCrop
  rw [hshift, Int.floor_add_intCast]

/-- With whole cells dropped, the first position is at least at the first tie point. -/
theorem floor_index_nonneg (hstep : 1 ≤ step) {axis : GridAxis T} {x : T} (hx : 0 ≤ x)
    (hshift : src.index (sourcePosition subsetOffset step x) =
      axis.index x + src.cellsBefore subsetOffset step) :
    src.cellsBefore subsetOffset step = 0 ∨ 0 ≤ ⌊axis.index x⌋ := by
  rcases lt_or_ge ⌊src.index (sourcePosition subsetOffset step (0 : T))⌋ 0 with hneg | hpos
  · exact .inl (max_eq_left hneg.le)
  · have hmono : src.index (sourcePosition subsetOffset step 0) ≤
        src.index (sourcePosition subsetOffset step x) := index_sourcePosition_mono src hstep hx
    have hfloor := Int.floor_le (src.index (sourcePosition subsetOffset step (0 : T)))
    have hcells : src.cellsBefore subsetOffset step =
        ⌊src.index (sourcePosition subsetOffset step (0 : T))⌋ := max_eq_right hpos
    rw [← hcells] at hfloor
    apply Or.inr
    apply Int.floor_nonneg.mpr
    linarith

/-- The subset's last tie point, where it takes fewer than the source has left. -/
theorem AxisSubset.Gives.size_of_short (hstep : 1 ≤ step) {axis : GridAxis T}
    (hgives : (subsetAxis src subsetOffset subsetSize step).Gives axis)
    (hshort : src.cellsBefore subsetOffset step +
      (⌈(subsetSize : T) / src.subSampling⌉ + 2) < src.size) :
    axis.size - 1 = ⌈(subsetSize : T) / src.subSampling⌉ + 1 := by
  have hsize := hgives.size
  rw [subsetAxis_size src hstep] at hsize
  omega

omit [FloorRing T] [IsStrictOrderedRing T] in
/-- A cell clamped in the subset is the one clamped in the source, unless the subset ends before
the source does and the position is not before its last tie point. -/
theorem clampTo_cells {k i : Int} {axis : GridAxis T} (hk : 0 ≤ k) (hlow : k = 0 ∨ 0 ≤ i)
    (hsize : axis.size ≤ src.size - k) (hhigh : axis.size = src.size - k ∨ i < axis.size - 1) :
    clampTo 0 (axis.size - 2) i + k = clampTo 0 (src.size - 2) (i + k) := by
  have htwo := axis.two_le_size
  unfold clampTo
  split_ifs <;> omega

/-- Where a subset reaches, a position is in the same cell as in the source. -/
theorem GridAxis.Reaches.sameCell (hstep : 1 ≤ step) {axis : GridAxis T}
    (hgives : (subsetAxis src subsetOffset subsetSize step).Gives axis)
    (h : src.Reaches subsetOffset subsetSize step) {x : T} (hx : InSubset subsetSize step x) :
    src.index (sourcePosition subsetOffset step x) =
        axis.index x + src.cellsBefore subsetOffset step ∧
      SameCell (axis.cell x + src.cellsBefore subsetOffset step)
        (src.cell (sourcePosition subsetOffset step x))
        (src.index (sourcePosition subsetOffset step x)) := by
  obtain ⟨hstart, hend⟩ := h
  have hshift : src.index (sourcePosition subsetOffset step x) =
      axis.index x + src.cellsBefore subsetOffset step := by
    rw [hgives.index_eq hstep x, cellsBefore_eq src hstart]
    push_cast
    ring
  refine ⟨hshift, ?_⟩
  have hsize := hgives.size
  rw [subsetAxis_size src hstep] at hsize
  have hlow := floor_index_nonneg hstep (le_trans (by norm_num) hx.2.1) hshift
  have hk : 0 ≤ src.cellsBefore subsetOffset step := le_max_left _ _
  have hcell : axis.cell x = clampTo 0 (axis.size - 2) ⌊axis.index x⌋ := rfl
  rw [hcell, cell_sourcePosition hshift]
  rcases le_or_gt src.size (src.cellsBefore subsetOffset step +
    (⌈(subsetSize : T) / src.subSampling⌉ + 2)) with hwhole | hshort
  -- the subset goes on to the last tie point
  · exact .inl (clampTo_cells hk hlow (by omega) (.inl (by omega)))
  -- the subset ends earlier, and no position lies behind its last tie point
  · have haxis := hgives.size_of_short hstep hshort
    have hle : axis.index x ≤ ((axis.size - 1 : Int) : T) := by
      have hmono : src.index (sourcePosition subsetOffset step x) ≤ src.index
          (sourcePosition subsetOffset step ((((subsetSize - 1) / step : Int) : T) + 1 / 2)) :=
        index_sourcePosition_mono src hstep hx.2.2
      have hbound := le_trans hmono (hend.resolve_left (not_le.mpr hshort))
      rw [hshift] at hbound
      rw [haxis]
      push_cast at hbound ⊢
      linarith
    rcases lt_or_eq_of_le hle with hlt | hnode
    · exact .inl (clampTo_cells hk hlow (by omega) (.inr (Int.floor_lt.mpr hlt)))
    -- the position is the subset's last tie point
    · have htwo := axis.two_le_size
      apply Or.inr
      apply Or.inl
      rw [hshift, hnode, Int.floor_intCast, clampTo_of_mem (by omega) (by omega)]
      constructor
      · unfold clampTo
        split_ifs <;> omega
      · push_cast
        ring

/-- Where no more cells are dropped than taken off, the region starts less than a cell before the
grid. -/
theorem AxisSubset.Gives.start_of_shift (hstep : 1 ≤ step) {axis : GridAxis T}
    (hgives : (subsetAxis src subsetOffset subsetSize step).Gives axis) {x : T}
    (hshift : src.index (sourcePosition subsetOffset step x) =
      axis.index x + src.cellsBefore subsetOffset step) :
    -1 < src.index (sourcePosition subsetOffset step (0 : T)) := by
  have hk : 0 ≤ src.cellsBefore subsetOffset step := le_max_left _ _
  rw [hgives.index_eq hstep] at hshift
  have hsum : toInt (-src.index (sourcePosition subsetOffset step (0 : T))) +
      src.cellsBefore subsetOffset step = 0 := by
    have hcast : ((toInt (-src.index (sourcePosition subsetOffset step (0 : T))) +
        src.cellsBefore subsetOffset step : Int) : T) = 0 := by
      push_cast
      linarith
    exact_mod_cast hcast
  have hq := mt toInt_pos_iff.mpr (show ¬ 0 < toInt
    (-src.index (sourcePosition subsetOffset step (0 : T))) by omega)
  linarith [not_le.mp hq]

/-- Where a position lies beyond the subset's last tie point, and the source has more, the cells
are not the same. -/
theorem not_sameCell_of_beyond {axis : GridAxis T} {x : T}
    (hshift : src.index (sourcePosition subsetOffset step x) =
      axis.index x + src.cellsBefore subsetOffset step)
    (hmore : axis.size + src.cellsBefore subsetOffset step < src.size)
    (hgt : ((axis.size - 1 : Int) : T) < axis.index x) :
    ¬ SameCell (axis.cell x + src.cellsBefore subsetOffset step)
      (src.cell (sourcePosition subsetOffset step x))
      (src.index (sourcePosition subsetOffset step x)) := by
  have htwo := axis.two_le_size
  have hk : 0 ≤ src.cellsBefore subsetOffset step := le_max_left _ _
  have hfloor : axis.size - 1 ≤ ⌊axis.index x⌋ := Int.le_floor.mpr hgt.le
  have hcell : axis.cell x = axis.size - 2 := by
    show clampTo 0 (axis.size - 2) ⌊axis.index x⌋ = _
    unfold clampTo
    split_ifs <;> omega
  have hsrcCell : axis.size - 1 + src.cellsBefore subsetOffset step ≤
      src.cell (sourcePosition subsetOffset step x) := by
    rw [cell_sourcePosition hshift]
    unfold clampTo
    split_ifs <;> omega
  rintro (heq | ⟨hnext, hat⟩ | ⟨hprev, -⟩)
  · omega
  -- the two cells share the subset's last tie point, which is before the position
  · have hnode : src.cell (sourcePosition subsetOffset step x) =
        axis.size - 1 + src.cellsBefore subsetOffset step := by omega
    rw [hshift, hnode] at hat
    push_cast at hat hgt
    linarith
  · omega

/-- Where the positions and cells of a subset are those of the source, it reaches. -/
theorem reaches_of_sameCell (hstep : 1 ≤ step) (hpixels : 0 < subsetSize) {axis : GridAxis T}
    (hgives : (subsetAxis src subsetOffset subsetSize step).Gives axis)
    (h : ∀ x, InSubset subsetSize step x →
      src.index (sourcePosition subsetOffset step x) =
          axis.index x + src.cellsBefore subsetOffset step ∧
        SameCell (axis.cell x + src.cellsBefore subsetOffset step)
          (src.cell (sourcePosition subsetOffset step x))
          (src.index (sourcePosition subsetOffset step x))) :
    src.Reaches subsetOffset subsetSize step := by
  have hlast : (0 : T) ≤ (((subsetSize - 1) / step : Int) : T) := by
    exact_mod_cast Int.ediv_nonneg (show 0 ≤ subsetSize - 1 by omega) (by omega)
  constructor
  · exact hgives.start_of_shift hstep (h (1 / 2) ⟨hpixels, le_refl _, by linarith⟩).1
  · by_contra hnot
    rw [not_or, not_le, not_le] at hnot
    obtain ⟨hshort, hbeyond⟩ := hnot
    obtain ⟨hshift, hsame⟩ := h ((((subsetSize - 1) / step : Int) : T) + 1 / 2)
      ⟨hpixels, by linarith, le_refl _⟩
    have haxis := hgives.size_of_short hstep hshort
    -- the last pixel lies beyond the subset's last tie point
    refine not_sameCell_of_beyond hshift (by omega) ?_ hsame
    rw [haxis]
    rw [hshift] at hbeyond
    push_cast at hbeyond ⊢
    linarith

/-- With a step of one or two, the tie points taken always reach to the last pixel. -/
theorem reaches_of_step_le_two (src : GridAxis T) (hstep : 1 ≤ step) (htwo : step ≤ 2)
    (hstart : -1 < src.index (sourcePosition subsetOffset step (0 : T))) :
    src.Reaches subsetOffset subsetSize step := by
  refine ⟨hstart, .inr ?_⟩
  have hsub := src.subSampling_pos
  have hceil := Int.le_ceil ((subsetSize : T) / src.subSampling)
  have hbefore : src.index (sourcePosition subsetOffset step (0 : T)) - 1 ≤
      src.cellsBefore subsetOffset step := by
    have hfloor := Int.sub_one_lt_floor (src.index (sourcePosition subsetOffset step (0 : T)))
    have hmax : ((⌊src.index (sourcePosition subsetOffset step (0 : T))⌋ : Int) : T) ≤
        src.cellsBefore subsetOffset step := by
      exact_mod_cast le_max_right _ _
    linarith
  -- from the region's edge to the centre of its last pixel is no more than its size
  have hwidth : src.index (sourcePosition subsetOffset step
      ((((subsetSize - 1) / step : Int) : T) + 1 / 2)) ≤
      src.index (sourcePosition subsetOffset step (0 : T)) +
        (subsetSize : T) / src.subSampling := by
    have hlast : (((subsetSize - 1) / step : Int) : T) * step ≤ subsetSize - 1 := by
      exact_mod_cast Int.ediv_mul_le (subsetSize - 1) (by omega)
    have hhalf : (step : T) ≤ 2 := by exact_mod_cast htwo
    unfold GridAxis.index sourcePosition
    rw [← add_div]
    apply div_le_div_of_nonneg_right _ hsub.le
    linarith
  push_cast
  linarith

end Axis

/-! ## The copied tie points -/

section Copy

variable (source : TiePointGrid T) (subsetDef : Option ProductSubsetDef)

omit [Field T] [LinearOrder T] [FloorRing T] in
theorem one_le_subsetStep (subsetDef : Option ProductSubsetDef) :
    1 ≤ (subsetStep subsetDef).1 ∧ 1 ≤ (subsetStep subsetDef).2 := by
  cases subsetDef with
  | none => exact ⟨le_refl 1, le_refl 1⟩
  | some subsetDef => exact ⟨subsetDef.one_le_x, subsetDef.one_le_y⟩

variable [IsStrictOrderedRing T]

/-- The tie points of a subset are some of the source's. -/
theorem subsetAxis_mem (src : GridAxis T) (subsetOffset subsetSize : Int) {step : Int}
    (hstep : 1 ≤ step) :
    0 ≤ (subsetAxis src subsetOffset subsetSize step).dataOffset ∧
      (subsetAxis src subsetOffset subsetSize step).dataOffset +
        (subsetAxis src subsetOffset subsetSize step).size ≤ src.size := by
  rw [subsetAxis_dataOffset src _ _ hstep, subsetAxis_size src hstep]
  exact ⟨le_max_left _ _, by omega⟩

theorem subsetX_mem (g : GridGeometry T) : 0 ≤ (g.subsetX subsetDef).dataOffset ∧
    (g.subsetX subsetDef).dataOffset + (g.subsetX subsetDef).size ≤ g.x.size :=
  subsetAxis_mem g.x _ _ (one_le_subsetStep subsetDef).1

theorem subsetY_mem (g : GridGeometry T) : 0 ≤ (g.subsetY subsetDef).dataOffset ∧
    (g.subsetY subsetDef).dataOffset + (g.subsetY subsetDef).size ≤ g.y.size :=
  subsetAxis_mem g.y _ _ (one_le_subsetStep subsetDef).2

/-- A row of a subset as a part of the source. -/
def TiePointGrid.rowPart (row : Int) : List T :=
  (source.tiePoints.drop (source.x.size * ((source.subsetY subsetDef).dataOffset + row) +
    (source.subsetX subsetDef).dataOffset).toNat).take (source.subsetX subsetDef).size.toNat

/-- Every row that is copied lies in the source. -/
theorem rowPart_bounds {row : Int} (hrow : 0 ≤ row)
    (hrow_lt : row < (source.subsetY subsetDef).size) :
    0 ≤ source.x.size * ((source.subsetY subsetDef).dataOffset + row) +
        (source.subsetX subsetDef).dataOffset ∧
      source.x.size * ((source.subsetY subsetDef).dataOffset + row) +
        (source.subsetX subsetDef).dataOffset + (source.subsetX subsetDef).size ≤
          source.tiePoints.length := by
  have hmemX := subsetX_mem subsetDef source.toGridGeometry
  have hmemY := subsetY_mem subsetDef source.toGridGeometry
  have hwidth := source.x.two_le_size
  have hfirst : 0 ≤ source.x.size * ((source.subsetY subsetDef).dataOffset + row) :=
    Int.mul_nonneg (by omega) (by omega)
  have hlast : source.x.size * ((source.subsetY subsetDef).dataOffset + row + 1) ≤
      source.x.size * source.y.size :=
    Int.mul_le_mul_of_nonneg_left (by omega) (by omega)
  rw [Int.mul_add _ _ 1, Int.mul_one, ← source.length_tiePoints] at hlast
  constructor
  · omega
  · omega

theorem collect_rows :
    Outcome.collect ((intRange 0 (source.subsetY subsetDef).size).map fun row =>
        copyFrom source.tiePoints (source.x.size * ((source.subsetY subsetDef).dataOffset + row) +
          (source.subsetX subsetDef).dataOffset) (source.subsetX subsetDef).size) =
      .ok ((intRange 0 (source.subsetY subsetDef).size).map (source.rowPart subsetDef)) := by
  rw [Outcome.collect_eq_ok, List.map_map]
  refine List.map_congr_left fun row hrow => ?_
  obtain ⟨hnonneg, hlt⟩ := mem_intRange.mp hrow
  exact if_pos (rowPart_bounds source subsetDef hnonneg hlt)

/-- No copy leaves the source's array. -/
theorem createSubset_ne_undefined : createSubset source subsetDef ≠ .undefined := by
  unfold createSubset
  simp only [collect_rows, Outcome.ok_bind]
  refine Outcome.bind_ne_undefined ?_ fun _ _ => ?_
  · unfold Outcome.require
    split <;> nofun
  · unfold TiePointGrid.create
    split <;> nofun

/-- A row of a subset, tie point by tie point. -/
theorem rowPart_eq {row : Int} (hrow : 0 ≤ row)
    (hrow_lt : row < (source.subsetY subsetDef).size) :
    source.rowPart subsetDef row = (intRange 0 (source.subsetX subsetDef).size).map fun a =>
      source.node (a + (source.subsetX subsetDef).dataOffset)
        (row + (source.subsetY subsetDef).dataOffset) := by
  obtain ⟨hfirst, hlast⟩ := rowPart_bounds source subsetDef hrow hrow_lt
  refine List.ext_getElem? fun n => ?_
  unfold TiePointGrid.rowPart
  rw [List.getElem?_take, List.getElem?_drop, List.getElem?_map]
  split
  · next hn =>
    rw [getElem?_intRange (by omega), Option.map_some]
    have hindex : (0 + (n : Int) + (source.subsetX subsetDef).dataOffset +
        (row + (source.subsetY subsetDef).dataOffset) * source.x.size).toNat =
        (source.x.size * ((source.subsetY subsetDef).dataOffset + row) +
          (source.subsetX subsetDef).dataOffset).toNat + n := by
      rw [show 0 + (n : Int) + (source.subsetX subsetDef).dataOffset +
        (row + (source.subsetY subsetDef).dataOffset) * source.x.size =
        source.x.size * ((source.subsetY subsetDef).dataOffset + row) +
          (source.subsetX subsetDef).dataOffset + n by ring]
      omega
    unfold TiePointGrid.node
    rw [hindex, List.getElem?_eq_getElem (by omega)]
    rfl
  · next hn =>
    have hnone : (intRange 0 (source.subsetX subsetDef).size)[n]? = none := by
      rw [List.getElem?_eq_none_iff, length_intRange]
      omega
    rw [hnone]
    rfl

omit [IsStrictOrderedRing T] [FloorRing T] in
/-- A grid whose tie points are those of an image. -/
theorem TiePointGrid.node_eq {grid : TiePointGrid T} {image : Int → Int → T}
    (h : grid.tiePoints = rowMajor grid.x.size grid.y.size image) {a b : Int} (ha : 0 ≤ a)
    (ha_lt : a < grid.x.size) (hb : 0 ≤ b) (hb_lt : b < grid.y.size) :
    grid.node a b = image a b := by
  have hread := vectorIndex_rowMajor ha ha_lt hb hb_lt image
  rw [← h, Int.add_comm, Int.mul_comm] at hread
  unfold node
  rw [(vectorIndex_eq_ok.mp hread).2]
  rfl

/-- A subset of two tie points or more each way is built, from the tie points of its part of
the source. -/
theorem createSubset_eq (hx : 2 ≤ (source.subsetX subsetDef).size)
    (hy : 2 ≤ (source.subsetY subsetDef).size) :
    ∃ subset, createSubset source subsetDef = .ok subset ∧
      (source.subsetX subsetDef).Gives subset.x ∧ (source.subsetY subsetDef).Gives subset.y ∧
      subset.tiePoints = rowMajor subset.x.size subset.y.size fun a b =>
        source.node (a + (source.subsetX subsetDef).dataOffset)
          (b + (source.subsetY subsetDef).dataOffset) := by
  have hstep := one_le_subsetStep subsetDef
  have hsubX : 0 < (source.subsetX subsetDef).subSampling :=
    div_pos source.x.subSampling_pos (by exact_mod_cast hstep.1)
  have hsubY : 0 < (source.subsetY subsetDef).subSampling :=
    div_pos source.y.subSampling_pos (by exact_mod_cast hstep.2)
  have hrows : ((intRange 0 (source.subsetY subsetDef).size).map
      (source.rowPart subsetDef)).flatten =
      rowMajor (source.subsetX subsetDef).size (source.subsetY subsetDef).size fun a b =>
        source.node (a + (source.subsetX subsetDef).dataOffset)
          (b + (source.subsetY subsetDef).dataOffset) := by
    refine congrArg List.flatten (List.map_congr_left fun row hrow => ?_)
    obtain ⟨hnonneg, hlt⟩ := mem_intRange.mp hrow
    exact rowPart_eq source subsetDef hnonneg hlt
  have hlength := length_rowMajor (show 0 ≤ (source.subsetX subsetDef).size by omega)
    (show 0 ≤ (source.subsetY subsetDef).size by omega) fun a b =>
      source.node (a + (source.subsetX subsetDef).dataOffset)
        (b + (source.subsetY subsetDef).dataOffset)
  refine ⟨⟨⟨source.name, ⟨_, (source.subsetX subsetDef).offset, _, hx, hsubX⟩,
    ⟨_, (source.subsetY subsetDef).offset, _, hy, hsubY⟩, none⟩, _, hlength⟩, ?_,
    ⟨rfl, rfl, rfl⟩, ⟨rfl, rfl, rfl⟩, rfl⟩
  unfold createSubset
  simp only [collect_rows, hrows, Outcome.ok_bind]
  rw [Outcome.require_of (Int.mul_nonneg (by omega) (by omega)), Outcome.ok_bind]
  exact dif_pos ⟨⟨hx, hsubX⟩, ⟨hy, hsubY⟩, hlength⟩

end Copy

/-! ## The subset and the source -/

section Subset

/-- The copies stay in the source, and a subset has the value of the source's pixel at each of
its own. -/
structure SubsetCorrect (source : TiePointGrid T) (subsetDef : Option ProductSubsetDef) :
    Prop where
  copies_inside : createSubset source subsetDef ≠ .undefined
  same_value : ∀ subset, createSubset source subsetDef = .ok subset → ∀ x y : T,
    InSubset (source.subsetRegion subsetDef).width (subsetStep subsetDef).1 x →
    InSubset (source.subsetRegion subsetDef).height (subsetStep subsetDef).2 y →
      subset.getPixelDouble x y =
        source.getPixelDouble
          (sourcePosition (source.subsetRegion subsetDef).x (subsetStep subsetDef).1 x)
          (sourcePosition (source.subsetRegion subsetDef).y (subsetStep subsetDef).2 y)

/-- Both axes reach, when the region has pixels. -/
def GridGeometry.Reaches (g : GridGeometry T) (subsetDef : Option ProductSubsetDef) : Prop :=
  let region := g.subsetRegion subsetDef
  0 < region.width → 0 < region.height →
    g.x.Reaches region.x region.width (subsetStep subsetDef).1 ∧
      g.y.Reaches region.y region.height (subsetStep subsetDef).2

omit [FloorRing T] in
theorem AxisSubset.Gives.unique {a : AxisSubset T} {axis axis' : GridAxis T} (h : a.Gives axis)
    (h' : a.Gives axis') : axis = axis' := by
  obtain ⟨size, offset, subSampling⟩ := h
  obtain ⟨size', offset', subSampling'⟩ := h'
  cases axis
  cases axis'
  simp only at *
  subst size offset subSampling size' offset' subSampling'
  rfl

/-- The value of a grid whose tie points are a part of an image, by the image. -/
theorem getPixelDouble_part {grid : TiePointGrid T} {image : Int → Int → T} {kx ky : Int}
    (h : grid.tiePoints = rowMajor grid.x.size grid.y.size fun a b => image (a + kx) (b + ky))
    (x y : T) :
    grid.getPixelDouble x y =
      .ok (cellValue (fun a => cellValue (image a) (grid.y.cell y + ky) (grid.y.index y + ky))
        (grid.x.cell x + kx) (grid.x.index x + kx)) := by
  obtain ⟨hi, hi_le⟩ := grid.x.cell_mem x
  obtain ⟨hj, hj_le⟩ := grid.y.cell_mem y
  have hcolumn : ∀ a, 0 ≤ a → a < grid.x.size →
      cellValue (grid.node a) (grid.y.cell y) (grid.y.index y) =
        cellValue (image (a + kx)) (grid.y.cell y + ky) (grid.y.index y + ky) := by
    intro a ha ha_lt
    rw [← cellValue_shift]
    exact cellValue_congr (grid.node_eq h ha ha_lt hj (by omega))
      (grid.node_eq h ha ha_lt (by omega) (by omega)) _
  rw [grid.getPixelDouble_eq, ← cellValue_shift]
  refine congrArg Outcome.ok ?_
  exact cellValue_congr (hcolumn _ hi (by omega)) (hcolumn _ (by omega) (by omega)) _

variable [IsStrictOrderedRing T]

/-- Subsets that reach are correct. -/
theorem subsetCorrect_of_reaches {source : TiePointGrid T} {subsetDef : Option ProductSubsetDef}
    (hx : 2 ≤ (source.subsetX subsetDef).size) (hy : 2 ≤ (source.subsetY subsetDef).size)
    (h : source.Reaches subsetDef) : SubsetCorrect source subsetDef := by
  have hstep := one_le_subsetStep subsetDef
  refine ⟨createSubset_ne_undefined source subsetDef, ?_⟩
  intro subset hsubset x y hpixelX hpixelY
  obtain ⟨subset', hsubset', hgivesX, hgivesY, htiePoints⟩ :=
    createSubset_eq source subsetDef hx hy
  rw [hsubset] at hsubset'
  obtain rfl := Outcome.ok.inj hsubset'
  obtain ⟨hreachX, hreachY⟩ := h hpixelX.1 hpixelY.1
  obtain ⟨hindexX, hcellX⟩ := hreachX.sameCell hstep.1 hgivesX hpixelX
  obtain ⟨hindexY, hcellY⟩ := hreachY.sameCell hstep.2 hgivesY hpixelY
  have hkx : (source.subsetX subsetDef).dataOffset = _ := subsetAxis_dataOffset source.x _ _ hstep.1
  have hky : (source.subsetY subsetDef).dataOffset = _ := subsetAxis_dataOffset source.y _ _ hstep.2
  rw [getPixelDouble_part htiePoints, source.getPixelDouble_eq, hkx, hky, ← hindexX, ← hindexY,
    hcellX.cellValue_eq]
  refine congrArg (fun f => Outcome.ok (cellValue f _ _)) (funext fun a => ?_)
  exact hcellY.cellValue_eq _

/-- A grid with the tie points of an image. -/
def GridGeometry.withImage (g : GridGeometry T) (image : Int → Int → T) : TiePointGrid T where
  toGridGeometry := g
  tiePoints := rowMajor g.x.size g.y.size image
  length_tiePoints := g.length_image image

/-- If subsets are correct, every image has the same value in the subset's cell as in the
source's. -/
theorem cellValue_of_subsetCorrect {g : GridGeometry T} {subsetDef : Option ProductSubsetDef}
    (hx : 2 ≤ (g.subsetX subsetDef).size) (hy : 2 ≤ (g.subsetY subsetDef).size)
    (h : ∀ source : TiePointGrid T, source.toGridGeometry = g → SubsetCorrect source subsetDef)
    {axisX axisY : GridAxis T} (hgivesX : (g.subsetX subsetDef).Gives axisX)
    (hgivesY : (g.subsetY subsetDef).Gives axisY) (image : Int → Int → T) {x y : T}
    (hpixelX : InSubset (g.subsetRegion subsetDef).width (subsetStep subsetDef).1 x)
    (hpixelY : InSubset (g.subsetRegion subsetDef).height (subsetStep subsetDef).2 y) :
    cellValue (fun a => cellValue (image a) (axisY.cell y + (g.subsetY subsetDef).dataOffset)
        (axisY.index y + (g.subsetY subsetDef).dataOffset))
      (axisX.cell x + (g.subsetX subsetDef).dataOffset)
      (axisX.index x + (g.subsetX subsetDef).dataOffset) =
    cellValue (fun a => cellValue (image a)
        (g.y.cell (sourcePosition (g.subsetRegion subsetDef).y (subsetStep subsetDef).2 y))
        (g.y.index (sourcePosition (g.subsetRegion subsetDef).y (subsetStep subsetDef).2 y)))
      (g.x.cell (sourcePosition (g.subsetRegion subsetDef).x (subsetStep subsetDef).1 x))
      (g.x.index (sourcePosition (g.subsetRegion subsetDef).x (subsetStep subsetDef).1 x)) := by
  have hstep := one_le_subsetStep subsetDef
  obtain ⟨subset, hsubset, hsubsetX, hsubsetY, htiePoints⟩ :=
    createSubset_eq (g.withImage image) subsetDef hx hy
  have hvalue := (h (g.withImage image) rfl).same_value subset hsubset x y hpixelX hpixelY
  obtain rfl : subset.x = axisX := hsubsetX.unique hgivesX
  obtain rfl : subset.y = axisY := hsubsetY.unique hgivesY
  have hmemX := subsetX_mem subsetDef g
  have hmemY := subsetY_mem subsetDef g
  have hsizeX : subset.x.size = (g.subsetX subsetDef).size := hgivesX.size
  have hsizeY : subset.y.size = (g.subsetY subsetDef).size := hgivesY.size
  have hpart : subset.tiePoints = rowMajor subset.x.size subset.y.size fun a b =>
      image (a + (g.subsetX subsetDef).dataOffset) (b + (g.subsetY subsetDef).dataOffset) := by
    rw [htiePoints]
    refine rowMajor_congr fun a b ha ha_lt hb hb_lt => ?_
    refine (g.withImage image).node_eq rfl (Int.add_nonneg ha hmemX.1) ?_
      (Int.add_nonneg hb hmemY.1) ?_
    · show a + (g.subsetX subsetDef).dataOffset < g.x.size
      omega
    · show b + (g.subsetY subsetDef).dataOffset < g.y.size
      omega
  -- the source is the part of itself that starts at its first tie point
  have hwhole : (g.withImage image).tiePoints =
      rowMajor g.x.size g.y.size fun a b => image (a + 0) (b + 0) := by
    simp only [Int.add_zero]
    rfl
  rw [getPixelDouble_part hpart, getPixelDouble_part hwhole] at hvalue
  have hequal := Outcome.ok.inj hvalue
  simp only [Int.cast_zero, add_zero] at hequal
  exact hequal

/-- The subsets of all grids of this geometry are correct exactly where both axes reach. -/
theorem subsetCorrect_iff (g : GridGeometry T) (subsetDef : Option ProductSubsetDef)
    (hx : 2 ≤ (g.subsetX subsetDef).size) (hy : 2 ≤ (g.subsetY subsetDef).size) :
    (∀ source : TiePointGrid T, source.toGridGeometry = g → SubsetCorrect source subsetDef) ↔
      g.Reaches subsetDef := by
  have hstep := one_le_subsetStep subsetDef
  constructor
  · intro h hwidth hheight
    obtain ⟨subset, -, hgivesX, hgivesY, -⟩ :=
      createSubset_eq (g.withImage fun _ _ => 0) subsetDef hx hy
    have hcells := cellValue_of_subsetCorrect hx hy h hgivesX hgivesY
    have hfirst : ∀ {size step : Int}, 0 < size → 1 ≤ step →
        InSubset size step (1 / 2 : T) := by
      intro size step hsize hstep
      have hlast : (0 : T) ≤ (((size - 1) / step : Int) : T) := by
        exact_mod_cast Int.ediv_nonneg (show 0 ≤ size - 1 by omega) (by omega)
      exact ⟨hsize, le_refl _, by linarith⟩
    have hkx : (g.subsetX subsetDef).dataOffset = _ := subsetAxis_dataOffset g.x _ _ hstep.1
    have hky : (g.subsetY subsetDef).dataOffset = _ := subsetAxis_dataOffset g.y _ _ hstep.2
    constructor
    · refine reaches_of_sameCell hstep.1 hwidth hgivesX fun x hpixelX => ?_
      -- images that are constant along the columns
      have hsame := sameCell_of_cellValue_eq fun f => by
        simpa only [cellValue_const] using
          hcells (fun a _ => f a) hpixelX (hfirst hheight hstep.2)
      rw [hkx] at hsame
      exact ⟨hsame.1.symm, hsame.2⟩
    · refine reaches_of_sameCell hstep.2 hheight hgivesY fun y hpixelY => ?_
      have hsame := sameCell_of_cellValue_eq fun f => by
        simpa only [cellValue_const] using
          hcells (fun _ b => f b) (hfirst hwidth hstep.1) hpixelY
      rw [hky] at hsame
      exact ⟨hsame.1.symm, hsame.2⟩
  · rintro hreaches source rfl
    exact subsetCorrect_of_reaches hx hy hreaches

end Subset

end Grid

/-! ## Two grids -/

section Examples

theorem twoPoints_le : (2 : Int) ≤ 2 := le_refl 2

theorem threePoints_le : (2 : Int) ≤ 3 := by decide

theorem wholePixel_pos : (0 : ℚ) < 1 := one_pos

/-- Tie points every five pixels from this offset on along `x`, numbered by column. -/
def columnGrid (offsetX : ℚ) : TiePointGrid ℚ :=
  GridGeometry.withImage ⟨"latitude", ⟨3, offsetX, 5, threePoints_le, by decide⟩,
    ⟨3, 0, 5, threePoints_le, by decide⟩, none⟩ fun a _ => a

def firstPixels : Option ProductSubsetDef :=
  some ⟨1, 1, [], some ⟨0, 0, 5, 5⟩, by decide, by decide⟩

/-- The first tie point at the first pixel's edge. -/
theorem subsetCorrect_columnGrid : SubsetCorrect (columnGrid 0) firstPixels :=
  (subsetCorrect_iff (columnGrid 0).toGridGeometry firstPixels (by decide +kernel)
    (by decide +kernel)).mpr (fun _ _ =>
      ⟨reaches_of_step_le_two _ (by decide) (by decide) (by decide +kernel),
        reaches_of_step_le_two _ (by decide) (by decide) (by decide +kernel)⟩) _ rfl

/-- The first tie point two cells beyond the first pixel's edge: the offset of the subset is
reduced to zero though no tie point is added before it. -/
theorem not_subsetCorrect_offset :
    2 ≤ ((columnGrid 10).subsetX firstPixels).size ∧
      2 ≤ ((columnGrid 10).subsetY firstPixels).size ∧
        ¬ SubsetCorrect (columnGrid 10) firstPixels := by
  refine ⟨by decide +kernel, by decide +kernel, fun hcorrect => ?_⟩
  obtain ⟨subset, hsubset, -⟩ := createSubset_eq (columnGrid 10) firstPixels (by decide +kernel)
    (by decide +kernel)
  have hvalue := hcorrect.same_value subset hsubset (1 / 2) (1 / 2)
    ⟨by decide +kernel, by decide +kernel, by decide +kernel⟩
    ⟨by decide +kernel, by decide +kernel, by decide +kernel⟩
  have hread : (createSubset (columnGrid 10) firstPixels >>= fun subset =>
      subset.getPixelDouble (1 / 2) (1 / 2)) = .ok (1 / 10) := by decide +kernel
  rw [hsubset, Outcome.ok_bind, hvalue] at hread
  exact absurd hread (by decide +kernel)

end Examples

end Alus.SnapEngine
