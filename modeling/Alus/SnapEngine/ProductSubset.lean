import Alus.SnapEngine.TiePointRaster
import Alus.SnapEngine.UtcElements

/-!
# The metadata of a subset

`ProductSubsetBuilder` (`product_subset_builder.cc`) makes a product of a region of another one. Its
tie point grids are cut to the region first. `UpdateMetadata` then sets the times of the first and
the last line, the slant range of the near range column and the origins of the ground ranges. Near
range is on the side where the subset's incidence angles are smaller.

Numbers are exact. The subset has no geocoding when its metadata is set, so that the corner
coordinates stay as they were copied.
-/

namespace Alus.SnapEngine

open Alus.Lib
open Alus.S1tbx (Utc)

section Computation

variable {T : Type} [Field T] [LinearOrder T] [FloorRing T]

/-- `Product`, as far as a subset's metadata needs it. -/
structure Product (T : Type) [Field T] [LinearOrder T] where
  sceneRasterWidth : Int
  sceneRasterHeight : Int
  slantRangeTime : Option (TiePointGrid T)
  incidentAngle : Option (TiePointGrid T)
  rawStorageSize : Int

/-- `Abstracted_Metadata`, as far as `UpdateMetadata` reads or sets it. -/
structure AbstractedMetadata (T : Type) where
  numOutputLines : Option Int
  numSamplesPerLine : Option Int
  subsetOffsetX : Option Int
  subsetOffsetY : Option Int
  radarFrequency : Option T
  firstLineTime : Option UtcElems
  lastLineTime : Option UtcElems
  totalSize : Option Int
  slantRangeToFirstPixel : Option T
  srgrFlag : Int
  rangeSpacing : Option T
  srgrCoefficients : Option (List (Option T))

/-- `AddTiePointGridsToProduct`, of one grid. -/
def addTiePointGrid (grid : Option (TiePointGrid T)) (subsetDef : ProductSubsetDef) :
    Outcome (Option (TiePointGrid T)) :=
  match grid with
  | some grid => do return some (← createSubset grid (some subsetDef))
  | none => return none

/-- `CreateProduct`. The size of the scene is that of the region, in steps of the sub-sampling. -/
def createProduct (source : Product T) (subsetDef : ProductSubsetDef) (rawStorageSize : Int) :
    Outcome (Product T) := do
  let slantRangeTime ← addTiePointGrid source.slantRangeTime subsetDef
  let incidentAngle ← addTiePointGrid source.incidentAngle subsetDef
  let region := subsetDef.region.getD ⟨0, 0, source.sceneRasterWidth, source.sceneRasterHeight⟩
  return {
    sceneRasterWidth := (region.width - 1) / subsetDef.subSamplingX + 1
    sceneRasterHeight := (region.height - 1) / subsetDef.subSamplingY + 1
    slantRangeTime
    incidentAngle
    rawStorageSize }

/-- `IsNearRangeOnLeft`. -/
def isNearRangeOnLeft (product : Product T) : Outcome Bool :=
  match product.incidentAngle with
  | some incidenceAngle => do
    let incidenceAngleToFirstPixel ← incidenceAngle.getPixelDoubleAt 0 0
    let incidenceAngleToLastPixel ←
      incidenceAngle.getPixelDoubleAt (product.sceneRasterWidth - 1) 0
    return incidenceAngleToFirstPixel < incidenceAngleToLastPixel
  | none => return true

/-- An attribute's time is set, where there is the attribute. -/
def setTime (elems : Option UtcElems) (mjd : T) : Outcome (Option UtcElems) :=
  match elems with
  | some _ => do return some (← UtcElems.ofMjd mjd)
  | none => return none

/-- `line_time_interval`. The quotient by zero is no time. -/
def lineTimeInterval (srcFirstLineTime srcLastLineTime : T) (sourceImageHeight : Int) :
    Outcome T :=
  if sourceImageHeight - 1 = 0 then .undefined
  else .ok ((srcLastLineTime - srcFirstLineTime) / (sourceImageHeight - 1 : Int))

/-- The times of the first and the last line. -/
def setLineTimes (source : Product T) (srcFirstLineTime srcLastLineTime : T)
    (region : Option Rectangle) (trgAbsRoot : AbstractedMetadata T) :
    Outcome (AbstractedMetadata T) :=
  match region with
  | some region => do
    let interval ← lineTimeInterval srcFirstLineTime srcLastLineTime source.sceneRasterHeight
    let newFirstLineTime := srcFirstLineTime + interval * region.y
    let newLastLineTime := newFirstLineTime + interval * (region.height - 1 : Int)
    let firstLineTime ← setTime trgAbsRoot.firstLineTime newFirstLineTime
    let lastLineTime ← setTime trgAbsRoot.lastLineTime newLastLineTime
    return { trgAbsRoot with firstLineTime, lastLineTime }
  | none => return trgAbsRoot

/-- The speed of light, halved. -/
def halfLightSpeed : T := 299792458 / 2

/-- `slant_range_dist`. -/
def slantRangeDist (target : Product T) (srcAbsRoot : AbstractedMetadata T)
    (srTpg : TiePointGrid T) (region : Rectangle) (nearRangeOnLeft : Bool) : Outcome T :=
  if srcAbsRoot.srgrFlag ≠ 0 then do
    let column := if nearRangeOnLeft then region.x
      else target.sceneRasterWidth - region.x - 1
    let slantRangeTime ← srTpg.getPixelDoubleAt column region.y
    return slantRangeTime / 1000000000 * halfLightSpeed
  else
    match srcAbsRoot.slantRangeToFirstPixel with
    | some slantRangeToFirstPixel =>
      let rangeSpacing := srcAbsRoot.rangeSpacing.getD 0
      let columns := if nearRangeOnLeft then region.x
        else target.sceneRasterWidth - region.x - 1
      return slantRangeToFirstPixel + columns * rangeSpacing
    | none => .throws

/-- The slant range of the first pixel. -/
def setSlantRange (target : Product T) (srcAbsRoot : AbstractedMetadata T)
    (region : Option Rectangle) (nearRangeOnLeft : Bool) (trgAbsRoot : AbstractedMetadata T) :
    Outcome (AbstractedMetadata T) :=
  match trgAbsRoot.slantRangeToFirstPixel, target.slantRangeTime, region with
  | some _, some srTpg, some region => do
    let distance ← slantRangeDist target srcAbsRoot srTpg region nearRangeOnLeft
    return { trgAbsRoot with slantRangeToFirstPixel := some distance }
  | _, _, _ => return trgAbsRoot

/-- `SetSubsetSRGRCoefficients`. -/
def setSubsetSrgrCoefficients (source target : Product T) (region : Option Rectangle)
    (absRoot : AbstractedMetadata T) (nearRangeOnLeft : Bool) : AbstractedMetadata T :=
  let rangeSpacing := absRoot.rangeSpacing.getD 0
  let colIndex : Int := match region with
    | some region => region.x
    | none => 0
  let columns := if nearRangeOnLeft then colIndex
    else source.sceneRasterWidth - colIndex - target.sceneRasterWidth
  { absRoot with
    srgrCoefficients := absRoot.srgrCoefficients.map fun lists =>
      lists.map fun groundRangeOrigin =>
        some (groundRangeOrigin.getD 0 + columns * rangeSpacing) }

/-- `SetElemUInt`, where there is the data. -/
def setElemUInt (data : Option Int) (value : Int) : Option Int := data.map fun _ => value

/-- The sizes of the raster, and where it lies in the source's. -/
def setRaster (target : Product T) (region : Option Rectangle)
    (trgAbsRoot : AbstractedMetadata T) : AbstractedMetadata T :=
  let trgAbsRoot := { trgAbsRoot with
    numOutputLines := setElemUInt trgAbsRoot.numOutputLines target.sceneRasterHeight
    numSamplesPerLine := setElemUInt trgAbsRoot.numSamplesPerLine target.sceneRasterWidth }
  match region with
  | some region => { trgAbsRoot with
      subsetOffsetX := setElemUInt trgAbsRoot.subsetOffsetX region.x
      subsetOffsetY := setElemUInt trgAbsRoot.subsetOffsetY region.y }
  | none => trgAbsRoot

/-- `UpdateMetadata`, of metadata that the target already has. -/
def updateMetadata (source target : Product T) (srcFirstLineTime srcLastLineTime : Utc)
    (srcAbsRoot trgAbsRoot : AbstractedMetadata T) (subsetDef : ProductSubsetDef) :
    Outcome (AbstractedMetadata T) := do
  let region := subsetDef.region
  let trgAbsRoot := setRaster target region trgAbsRoot
  -- update subset metadata for SAR products
  if trgAbsRoot.radarFrequency.getD 99999 = 99999 then return trgAbsRoot
  else
    let nearRangeOnLeft ← isNearRangeOnLeft target
    let trgAbsRoot ← setLineTimes source srcFirstLineTime.getMjd srcLastLineTime.getMjd region
      trgAbsRoot
    let trgAbsRoot := { trgAbsRoot with
      totalSize := setElemUInt trgAbsRoot.totalSize target.rawStorageSize }
    let trgAbsRoot ← setSlantRange target srcAbsRoot region nearRangeOnLeft trgAbsRoot
    return setSubsetSrgrCoefficients source target region trgAbsRoot nearRangeOnLeft

/-- `ReadProductNodesImpl`: the metadata of the subset, which is copied before it is updated. -/
def readProductNodes (source : Product T) (srcFirstLineTime srcLastLineTime : Utc)
    (srcAbsRoot : AbstractedMetadata T) (subsetDef : ProductSubsetDef) (rawStorageSize : Int) :
    Outcome (AbstractedMetadata T) := do
  let target ← createProduct source subsetDef rawStorageSize
  updateMetadata source target srcFirstLineTime srcLastLineTime srcAbsRoot srcAbsRoot subsetDef

end Computation

/-! ## Scenes and regions -/

section Scenes

variable {T : Type} [Field T] [LinearOrder T] [FloorRing T]

/-- The tie points reach over a raster's pixels along one axis. -/
structure GridAxis.CoversPixels (axis : GridAxis T) (length : Int) : Prop where
  starts : -1 < axis.index 0
  ends : axis.index (length - 1 : Int) < (axis.size - 1 : Int)

structure TiePointGrid.CoversRaster (grid : TiePointGrid T) (width height : Int) : Prop where
  x : grid.x.CoversPixels width
  y : grid.y.CoversPixels height

/-- A side of the raster is increasing towards the other one, or decreasing. -/
def Ascends (left : Bool) (a b : T) : Prop := if left then a < b else b < a

/-- A column as a number of samples from the near edge. -/
def fromNearEdge (left : Bool) (width column : Int) : Int :=
  if left then column else width - 1 - column

/-- A SAR product. Slant ranges belong to columns, counted from the near edge. -/
structure SarScene (T : Type) [Field T] [LinearOrder T] [FloorRing T] where
  product : Product T
  metadata : AbstractedMetadata T
  firstLineTime : Utc
  lastLineTime : Utc
  nearRangeOnLeft : Bool
  spacing : T
  slantRange : Int → T
  one_le_width : 1 ≤ product.sceneRasterWidth
  one_le_height : 1 ≤ product.sceneRasterHeight
  is_sar : metadata.radarFrequency.getD 99999 ≠ 99999
  has_first_line_time : metadata.firstLineTime.isSome = true
  has_last_line_time : metadata.lastLineTime.isSome = true
  spacing_pos : 0 < spacing
  range_spacing : metadata.rangeSpacing = some spacing
  slantRange_first : metadata.slantRangeToFirstPixel = some (slantRange 0)
  slantRange_lt : ∀ n n', 0 ≤ n → n < n' → n' < product.sceneRasterWidth →
    slantRange n < slantRange n'
  /-- Evenly spaced samples in slant range. -/
  slantRange_even : metadata.srgrFlag = 0 → ∀ n, 0 ≤ n → n < product.sceneRasterWidth →
    slantRange n = slantRange 0 + n * spacing
  slantRangeTime_covers : ∀ grid, product.slantRangeTime = some grid →
    grid.CoversRaster product.sceneRasterWidth product.sceneRasterHeight
  /-- The times of evenly spaced lines are those of columns. -/
  slantRangeTime_columns : metadata.srgrFlag ≠ 0 → ∀ grid, product.slantRangeTime = some grid →
    ∃ time : Int → T,
      (∀ a b, 0 ≤ a → a < grid.x.size → 0 ≤ b → b < grid.y.size → grid.node a b = time a) ∧
      ∀ a, 0 ≤ a → a + 1 < grid.x.size → Ascends nearRangeOnLeft (time a) (time (a + 1))
  slantRangeTime_eq : metadata.srgrFlag ≠ 0 → ∀ grid, product.slantRangeTime = some grid →
    ∀ column row, 0 ≤ column → column < product.sceneRasterWidth → 0 ≤ row →
      row < product.sceneRasterHeight → ∃ time, grid.getPixelDoubleAt column row = .ok time ∧
        slantRange (fromNearEdge nearRangeOnLeft product.sceneRasterWidth column) =
          time / 1000000000 * halfLightSpeed
  incidentAngle_covers : ∀ grid, product.incidentAngle = some grid →
    grid.CoversRaster product.sceneRasterWidth product.sceneRasterHeight
  /-- Incidence angles increase from near range on. -/
  incidentAngle_ascends : ∀ grid, product.incidentAngle = some grid →
    ∀ column column' row, 0 ≤ column → column < column' → column' < product.sceneRasterWidth →
      0 ≤ row → row < product.sceneRasterHeight → ∃ angle angle',
        grid.getPixelDoubleAt column row = .ok angle ∧
          grid.getPixelDoubleAt column' row = .ok angle' ∧ Ascends nearRangeOnLeft angle angle'
  left_of_none : product.incidentAngle = none → nearRangeOnLeft = true

/-- A region with pixels inside a raster. -/
structure RegionIn (rasterWidth rasterHeight : Int) extends Rectangle where
  x_nonneg : 0 ≤ x
  y_nonneg : 0 ≤ y
  one_le_width : 1 ≤ width
  one_le_height : 1 ≤ height
  right_le : x + width ≤ rasterWidth
  bottom_le : y + height ≤ rasterHeight

namespace SarScene

variable (scene : SarScene T)
  (region : RegionIn scene.product.sceneRasterWidth scene.product.sceneRasterHeight)

/-- Without sub-sampling. -/
def subsetDef : ProductSubsetDef :=
  ⟨1, 1, [], some region.toRectangle, le_rfl, le_rfl⟩

/-- The metadata of the subset. -/
def subsetMetadata (rawStorageSize : Int) : Outcome (AbstractedMetadata T) :=
  readProductNodes scene.product scene.firstLineTime scene.lastLineTime scene.metadata
    (scene.subsetDef region) rawStorageSize

/-- The time of a line. -/
def lineTime (line : Int) : T :=
  scene.firstLineTime.getMjd + (scene.lastLineTime.getMjd - scene.firstLineTime.getMjd) /
    (scene.product.sceneRasterHeight - 1 : Int) * line

/-- The samples from the near edge to the region. -/
def samplesBefore : Int :=
  if scene.nearRangeOnLeft then region.x
  else scene.product.sceneRasterWidth - region.x - region.width

/-- The metadata describes the subset. -/
structure Describes (metadata : AbstractedMetadata T) : Prop where
  first_line_time : ∃ time, UtcElems.ofMjd (scene.lineTime region.y) = .ok time ∧
    metadata.firstLineTime = some time
  last_line_time : ∃ time,
    UtcElems.ofMjd (scene.lineTime (region.y + region.height - 1)) = .ok time ∧
      metadata.lastLineTime = some time
  slant_range : metadata.slantRangeToFirstPixel =
    some (scene.slantRange (scene.samplesBefore region))
  ground_range_origins : metadata.srgrCoefficients =
    scene.metadata.srgrCoefficients.map fun lists => lists.map fun groundRangeOrigin =>
      some (groundRangeOrigin.getD 0 + scene.samplesBefore region * scene.spacing)

/-- A single column near the left side, whose incidence angle is not below itself. -/
def SideMistaken : Prop :=
  scene.nearRangeOnLeft = true ∧ region.width = 1 ∧ scene.product.incidentAngle.isSome = true

/-- The slant range that is set is that of the near range column. -/
def SlantRangeKept : Prop :=
  if scene.product.slantRangeTime.isNone then scene.samplesBefore region = 0
  else if scene.metadata.srgrFlag ≠ 0 then region.x = 0
  else if scene.nearRangeOnLeft then scene.SideMistaken region → region.x = 0
  else 2 * region.width = scene.product.sceneRasterWidth + 1

/-- The origins are shifted by the samples before the region. -/
def OriginsKept : Prop :=
  scene.SideMistaken region →
    scene.metadata.srgrCoefficients.getD [] = [] ∨
      scene.product.sceneRasterWidth = 2 * region.x + 1

end SarScene

end Scenes

/-! ## Tie points by columns -/

section Columns

variable {T : Type} [Field T] [LinearOrder T] [FloorRing T]

/-- The value of a grid whose rows are the same. -/
theorem getPixelDouble_of_columns {grid : TiePointGrid T} {f : Int → T}
    (h : ∀ a b, 0 ≤ a → a < grid.x.size → 0 ≤ b → b < grid.y.size → grid.node a b = f a) (x y : T) :
    grid.getPixelDouble x y = .ok (cellValue f (grid.x.cell x) (grid.x.index x)) := by
  obtain ⟨hi, hi'⟩ := grid.x.cell_mem x
  obtain ⟨hj, hj'⟩ := grid.y.cell_mem y
  have hcolumn : ∀ a, 0 ≤ a → a < grid.x.size →
      cellValue (grid.node a) (grid.y.cell y) (grid.y.index y) = f a := by
    intro a ha ha'
    rw [cellValue_congr (g := fun _ => f a) (h a _ ha ha' hj (by omega))
      (h a _ ha ha' (by omega) (by omega)), cellValue_const]
  rw [grid.getPixelDouble_eq]
  exact congrArg Outcome.ok
    (cellValue_congr (hcolumn _ hi (by omega)) (hcolumn _ (by omega) (by omega)) _)

variable [IsStrictOrderedRing T]

omit [Field T] [FloorRing T] [IsStrictOrderedRing T] in
/-- Values at the tie points ascend over several cells where they do over each. -/
theorem node_mono {f : Int → T} {n : Int} (hf : ∀ a, 0 ≤ a → a ≤ n → f a < f (a + 1)) {a : Int}
    (ha : 0 ≤ a) (k : Nat) (hk : a + k ≤ n + 1) : f a ≤ f (a + k) := by
  induction k with
  | zero => rw [Nat.cast_zero, add_zero]
  | succ k ih =>
    push_cast at hk ⊢
    have hnext := hf (a + k) (by omega) (by omega)
    rw [← add_assoc]
    exact le_trans (ih (by omega)) hnext.le

/-- A position is before the end of its cell, unless this is the last one. -/
theorem lt_cell_end {n : Int} {t : T} (h : clampTo 0 n ⌊t⌋ < n) :
    t < ((clampTo 0 n ⌊t⌋ : Int) : T) + 1 := by
  have hfloor : ⌊t⌋ ≤ clampTo 0 n ⌊t⌋ := by
    unfold clampTo at h ⊢
    split_ifs at h ⊢ <;> omega
  have hcast : ((⌊t⌋ : Int) : T) ≤ (clampTo 0 n ⌊t⌋ : Int) := by exact_mod_cast hfloor
  have hnext := Int.lt_floor_add_one t
  linarith

/-- A position is not before the start of its cell, unless this is the first one. -/
theorem cell_start_le {n : Int} {t : T} (h : 0 < clampTo 0 n ⌊t⌋) :
    ((clampTo 0 n ⌊t⌋ : Int) : T) ≤ t := by
  have hfloor : clampTo 0 n ⌊t⌋ ≤ ⌊t⌋ := by
    unfold clampTo at h ⊢
    split_ifs at h ⊢ <;> omega
  have hcast : ((clampTo 0 n ⌊t⌋ : Int) : T) ≤ (⌊t⌋ : Int) := by exact_mod_cast hfloor
  exact hcast.trans (Int.floor_le t)

/-- Interpolated and extrapolated values ascend where those at the tie points do. -/
theorem cellValue_ascends {f : Int → T} {n : Int} (hn : 0 ≤ n)
    (hf : ∀ a, 0 ≤ a → a ≤ n → f a < f (a + 1)) {t t' : T} (h : t < t') :
    cellValue f (clampTo 0 n ⌊t⌋) t < cellValue f (clampTo 0 n ⌊t'⌋) t' := by
  have hle : clampTo 0 n ⌊t⌋ ≤ clampTo 0 n ⌊t'⌋ := clampTo_mono hn (Int.floor_mono h.le)
  obtain ⟨hlow, hhigh⟩ := clampTo_mem hn ⌊t⌋
  obtain ⟨hlow', hhigh'⟩ := clampTo_mem hn ⌊t'⌋
  have hstep := hf _ hlow hhigh
  have hstep' := hf _ hlow' hhigh'
  cases lt_or_eq_of_le hle with
  | inr hsame =>
    rw [← hsame]
    unfold cellValue
    have hmul := mul_lt_mul_of_pos_right (sub_lt_sub_right h ((clampTo 0 n ⌊t⌋ : Int) : T))
      (sub_pos.mpr hstep)
    linarith
  | inl hlt =>
    -- the first position is before the end of its cell, the second not before the start of its own
    have hend := lt_cell_end (hlt.trans_le hhigh')
    have hstart := cell_start_le (hlow.trans_lt hlt)
    obtain ⟨k, hk⟩ := Int.le.dest (Int.add_one_le_of_lt hlt)
    have hgap := node_mono hf (show 0 ≤ clampTo 0 n ⌊t⌋ + 1 by omega) k (by omega)
    rw [hk] at hgap
    have hbelow : cellValue f (clampTo 0 n ⌊t⌋) t < f (clampTo 0 n ⌊t⌋ + 1) := by
      unfold cellValue
      have hmul := mul_lt_mul_of_pos_right (show t - (clampTo 0 n ⌊t⌋ : Int) < 1 by linarith)
        (sub_pos.mpr hstep)
      linarith
    have habove : f (clampTo 0 n ⌊t'⌋) ≤ cellValue f (clampTo 0 n ⌊t'⌋) t' := by
      unfold cellValue
      have hmul := mul_nonneg (sub_nonneg.mpr hstart) (sub_pos.mpr hstep').le
      linarith
    exact lt_of_lt_of_le hbelow (le_trans hgap habove)

/-- A value belongs to one position where the tie points ascend to one side. -/
theorem cellValue_inj {f : Int → T} {n : Int} (hn : 0 ≤ n) {left : Bool}
    (hf : ∀ a, 0 ≤ a → a ≤ n → Ascends left (f a) (f (a + 1))) {t t' : T}
    (h : cellValue f (clampTo 0 n ⌊t⌋) t = cellValue f (clampTo 0 n ⌊t'⌋) t') : t = t' := by
  cases left with
  | true =>
    apply le_antisymm
    · exact not_lt.mp fun hlt => (cellValue_ascends hn hf hlt).ne' h
    · exact not_lt.mp fun hlt => (cellValue_ascends hn hf hlt).ne h
  | false =>
    -- the negated values ascend to the other side
    have hneg : ∀ a, 0 ≤ a → a ≤ n → -f a < -f (a + 1) := fun a ha ha' =>
      neg_lt_neg (hf a ha ha')
    have hvalue : ∀ i (s : T), cellValue (fun a => -f a) i s = -cellValue f i s := by
      intro i s
      unfold cellValue
      ring
    have hlt_of : ∀ {s s' : T}, s < s' →
        cellValue f (clampTo 0 n ⌊s'⌋) s' < cellValue f (clampTo 0 n ⌊s⌋) s := by
      intro s s' hlt
      have hascends := cellValue_ascends hn hneg hlt
      rw [hvalue, hvalue] at hascends
      exact neg_lt_neg_iff.mp hascends
    apply le_antisymm
    · exact not_lt.mp fun hlt => (hlt_of hlt).ne h
    · exact not_lt.mp fun hlt => (hlt_of hlt).ne' h

end Columns

/-! ## The grids of the subset -/

section Grids

variable {T : Type} [Field T] [LinearOrder T] [FloorRing T]

theorem sourcePosition_one (subsetOffset : Int) (x : T) :
    sourcePosition subsetOffset 1 x = x + subsetOffset := by
  unfold sourcePosition
  rw [Int.cast_one]
  ring

variable [IsStrictOrderedRing T]

omit [FloorRing T] in
theorem GridAxis.index_lt (axis : GridAxis T) {x x' : T} (h : x < x') :
    axis.index x < axis.index x' :=
  div_lt_div_of_pos_right (sub_lt_sub_right h _) axis.subSampling_pos

namespace GridAxis.CoversPixels

variable {axis : GridAxis T} {length subsetOffset subsetSize : Int}

/-- The first tie point is less than a cell after a region's start. -/
theorem reaches (h : axis.CoversPixels length) (hoffset : 0 ≤ subsetOffset) :
    axis.Reaches subsetOffset subsetSize 1 := by
  apply reaches_of_step_le_two axis le_rfl (by decide)
  rw [sourcePosition_one, zero_add]
  apply lt_of_lt_of_le h.starts
  cases lt_or_eq_of_le hoffset with
  | inl hpos => exact (axis.index_lt (by exact_mod_cast hpos)).le
  | inr hzero => rw [← hzero, Int.cast_zero]

/-- A region's part of the axis has two tie points or more. -/
theorem two_le_subset (h : axis.CoversPixels length) (hsize : 1 ≤ subsetSize)
    (hlast : subsetOffset + subsetSize ≤ length) :
    2 ≤ (subsetAxis axis subsetOffset subsetSize 1).size := by
  have hcells : 1 ≤ ⌈(subsetSize : T) / axis.subSampling⌉ := by
    have hpos : (0 : T) < (subsetSize : T) / axis.subSampling :=
      div_pos (by exact_mod_cast hsize) axis.subSampling_pos
    have := Int.ceil_pos.mpr hpos
    omega
  have hbefore : axis.cellsBefore subsetOffset 1 ≤ axis.size - 2 := by
    have htwo := axis.two_le_size
    have hindex : axis.index (sourcePosition subsetOffset 1 (0 : T)) < (axis.size - 1 : Int) := by
      apply lt_of_le_of_lt _ h.ends
      rw [sourcePosition_one, zero_add]
      cases lt_or_eq_of_le (show subsetOffset ≤ length - 1 by omega) with
      | inl hlt => exact (axis.index_lt (by exact_mod_cast hlt)).le
      | inr heq => rw [heq]
    have hfloor := Int.floor_lt.mpr hindex
    unfold cellsBefore
    omega
  rw [subsetAxis_size axis le_rfl]
  omega

end GridAxis.CoversPixels

/-- The subset's grid has the values of the region, and tie points of the source's. -/
structure CutFrom (grid subset : TiePointGrid T) (region : Rectangle) : Prop where
  values : ∀ column row, 0 ≤ column → column < region.width → 0 ≤ row → row < region.height →
    subset.getPixelDoubleAt column row =
      grid.getPixelDoubleAt (column + region.x) (row + region.y)
  nodes : ∃ k l, (0 ≤ k ∧ k + subset.x.size ≤ grid.x.size) ∧
    (0 ≤ l ∧ l + subset.y.size ≤ grid.y.size) ∧
    ∀ a b, 0 ≤ a → a < subset.x.size → 0 ≤ b → b < subset.y.size →
      subset.node a b = grid.node (a + k) (b + l)

namespace SarScene

variable {scene : SarScene T}
  {region : RegionIn scene.product.sceneRasterWidth scene.product.sceneRasterHeight}
  {grid : TiePointGrid T}

variable (region) in
/-- A grid over the raster is cut to the region. -/
theorem exists_cut
    (h : grid.CoversRaster scene.product.sceneRasterWidth scene.product.sceneRasterHeight) :
    ∃ subset, createSubset grid (some (scene.subsetDef region)) = .ok subset ∧
      CutFrom grid subset region.toRectangle := by
  have hx : 2 ≤ (grid.subsetX (some (scene.subsetDef region))).size :=
    h.x.two_le_subset region.one_le_width region.right_le
  have hy : 2 ≤ (grid.subsetY (some (scene.subsetDef region))).size :=
    h.y.two_le_subset region.one_le_height region.bottom_le
  -- the grid covers the raster, so it reaches over the subset too
  have hreaches : grid.Reaches (some (scene.subsetDef region)) := fun _ _ =>
    ⟨h.x.reaches region.x_nonneg, h.y.reaches region.y_nonneg⟩
  have hcorrect := subsetCorrect_of_reaches hx hy hreaches
  obtain ⟨subset, hok, hgivesX, hgivesY, htiePoints⟩ := createSubset_eq grid _ hx hy
  have hmemX := subsetX_mem (some (scene.subsetDef region)) grid.toGridGeometry
  have hmemY := subsetY_mem (some (scene.subsetDef region)) grid.toGridGeometry
  rw [← hgivesX.size] at hmemX
  rw [← hgivesY.size] at hmemY
  refine ⟨subset, hok, ?_, ?_⟩
  · intro column row hc hc' hr hr'
    -- every pixel's centre is in the subset
    have hpixel : ∀ {size k : Int}, 0 ≤ k → k < size → InSubset size 1 ((k : T) + 1 / 2) := by
      intro size k hk hk'
      have hk0 : (0 : T) ≤ k := by exact_mod_cast hk
      have hk1 : (k : T) ≤ ((size - 1 : Int) : T) := by exact_mod_cast (by omega : k ≤ size - 1)
      refine ⟨by omega, by linarith, ?_⟩
      rw [Int.ediv_one]
      linarith
    have hvalue := hcorrect.same_value subset hok (column + 1 / 2) (row + 1 / 2) (hpixel hc hc')
      (hpixel hr hr')
    -- and comes from the centre of a pixel of the source
    have hcenter : ∀ k offset : Int,
        sourcePosition offset 1 ((k : T) + 1 / 2) = ((k + offset : Int) : T) + 1 / 2 := by
      intro k offset
      rw [sourcePosition_one]
      push_cast
      ring
    show subset.getPixelDouble _ _ = grid.getPixelDouble _ _
    rw [hvalue, ← hcenter column region.x, ← hcenter row region.y]
    rfl
  · refine ⟨_, _, hmemX, hmemY, ?_⟩
    intro a b ha ha' hb hb'
    exact TiePointGrid.node_eq htiePoints ha ha' hb hb'

/-- The slant range times of the subset tell its columns apart, and only these. -/
theorem time_eq_iff (hsrgr : scene.metadata.srgrFlag ≠ 0)
    (hgrid : scene.product.slantRangeTime = some grid) {subset : TiePointGrid T}
    (hcut : CutFrom grid subset region.toRectangle) {column column' row row' : Int} {time time' : T}
    (h : subset.getPixelDoubleAt column row = .ok time)
    (h' : subset.getPixelDoubleAt column' row' = .ok time') :
    time = time' ↔ column = column' := by
  obtain ⟨times, hcolumns, hascends⟩ := scene.slantRangeTime_columns hsrgr grid hgrid
  obtain ⟨k, l, hk, hl, hnodes⟩ := hcut.nodes
  have htwo := subset.x.two_le_size
  -- the columns of the subset are columns of the source
  have hsubset : ∀ a b, 0 ≤ a → a < subset.x.size → 0 ≤ b → b < subset.y.size →
      subset.node a b = times (a + k) := by
    intro a b ha ha' hb hb'
    rw [hnodes a b ha ha' hb hb']
    exact hcolumns _ _ (by omega) (by omega) (by omega) (by omega)
  have hvalue : ∀ column row : Int, subset.getPixelDoubleAt column row =
      .ok (cellValue (fun a => times (a + k)) (subset.x.cell (column + 1 / 2))
        (subset.x.index (column + 1 / 2))) :=
    fun column row => getPixelDouble_of_columns hsubset _ _
  -- a shift keeps their order
  have hshifted : ∀ a, 0 ≤ a → a ≤ subset.x.size - 2 →
      Ascends scene.nearRangeOnLeft (times (a + k)) (times (a + 1 + k)) := by
    intro a ha ha'
    have hstep := hascends (a + k) (by omega) (by omega)
    rwa [show a + k + 1 = a + 1 + k by omega] at hstep
  rw [hvalue] at h h'
  rw [← Outcome.ok.inj h, ← Outcome.ok.inj h']
  constructor
  · intro hsame
    have hindex := cellValue_inj (n := subset.x.size - 2) (by omega) hshifted hsame
    have hposition : (column : T) + 1 / 2 = column' + 1 / 2 := by
      apply le_antisymm
      · exact not_lt.mp fun hlt => (subset.x.index_lt hlt).ne' hindex
      · exact not_lt.mp fun hlt => (subset.x.index_lt hlt).ne hindex
    exact_mod_cast add_right_cancel hposition
  · intro hsame
    rw [hsame]

/-- The grids of the target product. -/
structure CutProduct (scene : SarScene T)
    (region : RegionIn scene.product.sceneRasterWidth scene.product.sceneRasterHeight)
    (target : Product T) : Prop where
  width : target.sceneRasterWidth = region.width
  slantRangeTime : (scene.product.slantRangeTime = none ∧ target.slantRangeTime = none) ∨
    ∃ grid subset, scene.product.slantRangeTime = some grid ∧
      target.slantRangeTime = some subset ∧ CutFrom grid subset region.toRectangle
  incidentAngle : (scene.product.incidentAngle = none ∧ target.incidentAngle = none) ∨
    ∃ grid subset, scene.product.incidentAngle = some grid ∧
      target.incidentAngle = some subset ∧ CutFrom grid subset region.toRectangle

variable (region) in
theorem exists_addTiePointGrid {grid : Option (TiePointGrid T)}
    (h : ∀ g, grid = some g →
      g.CoversRaster scene.product.sceneRasterWidth scene.product.sceneRasterHeight) :
    ∃ added, addTiePointGrid grid (scene.subsetDef region) = .ok added ∧
      ((grid = none ∧ added = none) ∨ ∃ g subset, grid = some g ∧ added = some subset ∧
        CutFrom g subset region.toRectangle) := by
  cases grid with
  | none => exact ⟨none, rfl, .inl ⟨rfl, rfl⟩⟩
  | some g =>
    obtain ⟨subset, hok, hcut⟩ := exists_cut region (h g rfl)
    refine ⟨some subset, ?_, .inr ⟨g, subset, rfl, rfl, hcut⟩⟩
    show (createSubset g (some (scene.subsetDef region)) >>= fun cut => Outcome.ok (some cut)) = _
    rw [hok]
    rfl

/-- The target is created. -/
theorem exists_createProduct (scene : SarScene T)
    (region : RegionIn scene.product.sceneRasterWidth scene.product.sceneRasterHeight)
    (rawStorageSize : Int) :
    ∃ target, createProduct scene.product (scene.subsetDef region) rawStorageSize = .ok target ∧
      CutProduct scene region target := by
  obtain ⟨slant, hslant, hslantCut⟩ :=
    exists_addTiePointGrid region scene.slantRangeTime_covers
  obtain ⟨incident, hincident, hincidentCut⟩ :=
    exists_addTiePointGrid region scene.incidentAngle_covers
  unfold createProduct
  rw [hslant, hincident]
  refine ⟨_, rfl, ?_, hslantCut, hincidentCut⟩
  show (region.width - 1) / 1 + 1 = region.width
  rw [Int.ediv_one]
  omega

omit [IsStrictOrderedRing T] in
/-- The side that is found for near range. -/
theorem exists_isNearRangeOnLeft {target : Product T} (h : CutProduct scene region target) :
    ∃ side, isNearRangeOnLeft target = .ok side ∧
      (side = true ↔ scene.nearRangeOnLeft = true ∧ ¬ scene.SideMistaken region) := by
  have hwidth := region.one_le_width
  have hheight := region.one_le_height
  have hright := region.right_le
  have hbottom := region.bottom_le
  have hx := region.x_nonneg
  have hy := region.y_nonneg
  unfold isNearRangeOnLeft
  cases h.incidentAngle with
  | inl hnone =>
    rw [hnone.2]
    refine ⟨true, rfl, iff_of_true rfl ⟨scene.left_of_none hnone.1, fun hmistaken => ?_⟩⟩
    have hsome := hmistaken.2.2
    rw [hnone.1] at hsome
    cases hsome
  | inr hsome =>
    obtain ⟨grid, subset, hgrid, hsubset, hcut⟩ := hsome
    rw [hsubset, h.width]
    show ∃ side, (subset.getPixelDoubleAt 0 0 >>= fun first =>
      subset.getPixelDoubleAt (region.width - 1) 0 >>= fun last =>
        Outcome.ok (decide (first < last))) = .ok side ∧ _
    cases lt_or_eq_of_le hwidth with
    | inr hone =>
      -- the first pixel is the last one
      rw [← hone, sub_self, show subset.getPixelDoubleAt 0 0 = .ok _ from
        subset.getPixelDouble_eq _ _]
      refine ⟨false, ?_, iff_of_false Bool.false_ne_true fun hside =>
        hside.2 ⟨hside.1, hone.symm, ?_⟩⟩
      · show Outcome.ok (decide (_ < _)) = _
        rw [decide_eq_false (lt_irrefl _)]
      · rw [hgrid]
        rfl
    | inl htwo =>
      obtain ⟨angle, angle', hangle, hangle', hascends⟩ := scene.incidentAngle_ascends grid hgrid
        (0 + region.x) (region.width - 1 + region.x) (0 + region.y) (by omega) (by omega)
        (by omega) (by omega) (by omega)
      rw [hcut.values 0 0 le_rfl (by omega) le_rfl (by omega),
        hcut.values (region.width - 1) 0 (by omega) (by omega) le_rfl (by omega), hangle, hangle']
      refine ⟨decide (angle < angle'), rfl, ?_⟩
      rw [decide_eq_true_iff]
      have hnot : ¬ scene.SideMistaken region := fun hmistaken => htwo.ne' hmistaken.2.1
      cases hleft : scene.nearRangeOnLeft with
      | true =>
        rw [hleft] at hascends
        exact iff_of_true hascends ⟨rfl, hnot⟩
      | false =>
        rw [hleft] at hascends
        exact iff_of_false (not_lt.mpr (le_of_lt hascends)) fun hside =>
          Bool.false_ne_true hside.1

/-! ### Times -/

/-- The elements of a time in the calendar. -/
theorem exists_ofMjd_between {mjd : T} (hlow : (-219145 : T) ≤ mjd) (hhigh : mjd ≤ 2921940) :
    ∃ time, UtcElems.ofMjd mjd = .ok time := by
  have hfits : Fits 32 (toInt mjd) := by
    have h1 : (-219145 : Int) ≤ toInt mjd := le_toInt (by push_cast; exact hlow)
    have h2 : toInt mjd ≤ 2921940 := toInt_le (by push_cast; exact hhigh)
    rw [fits32_iff]
    omega
  unfold UtcElems.ofMjd
  rw [int32_of_fits hfits, Outcome.ok_bind]
  split
  · exact ⟨_, rfl⟩
  · exact ⟨_, rfl⟩

theorem getMjd_mem (time : Utc) : (-219145 : T) ≤ time.getMjd ∧ (time.getMjd : T) ≤ 2921940 := by
  have hcalendar := time.in_calendar
  have hmicros : (time.microseconds : T) < 1000000 := by exact_mod_cast time.microseconds_lt
  have hnonneg : (0 : T) ≤ time.microseconds := Nat.cast_nonneg _
  have hlow : (-219145 * 86400 : T) ≤ time.days * 86400 + time.seconds := by
    exact_mod_cast (by omega : (-219145 * 86400 : Int) ≤ time.days * 86400 + time.seconds)
  have hhigh : (time.days * 86400 + time.seconds + 1 : T) ≤ 2921940 * 86400 := by
    exact_mod_cast (by omega : time.days * 86400 + time.seconds + 1 ≤ (2921940 * 86400 : Int))
  have htime : (time.getMjd : T) * 86400 = time.time := Utc.getMjd_mul time
  unfold Utc.time at htime
  constructor
  · linarith
  · linarith

/-- The lines of the source have times in the calendar. -/
theorem exists_lineTime (hheight : 2 ≤ scene.product.sceneRasterHeight) {line : Int}
    (h0 : 0 ≤ line) (h1 : line < scene.product.sceneRasterHeight) :
    ∃ time, UtcElems.ofMjd (scene.lineTime line) = .ok time := by
  obtain ⟨hfirst, hfirst'⟩ := getMjd_mem (T := T) scene.firstLineTime
  obtain ⟨hlast, hlast'⟩ := getMjd_mem (T := T) scene.lastLineTime
  have hlines : (0 : T) < ((scene.product.sceneRasterHeight - 1 : Int) : T) := by
    exact_mod_cast (by omega : 0 < scene.product.sceneRasterHeight - 1)
  -- the share of the lines before it
  have hshare0 : (0 : T) ≤ (line : T) / (scene.product.sceneRasterHeight - 1 : Int) :=
    div_nonneg (by exact_mod_cast h0) hlines.le
  have hshare1 : (line : T) / (scene.product.sceneRasterHeight - 1 : Int) ≤ 1 := by
    rw [div_le_one hlines]
    exact_mod_cast (by omega : line ≤ scene.product.sceneRasterHeight - 1)
  have htime : scene.lineTime line = scene.firstLineTime.getMjd + (line : T) /
      (scene.product.sceneRasterHeight - 1 : Int) *
        (scene.lastLineTime.getMjd - scene.firstLineTime.getMjd) := by
    unfold lineTime
    ring
  rw [htime]
  apply exists_ofMjd_between
  · nlinarith
  · nlinarith

variable (region) in
/-- The times that are set are those of the region's lines. -/
theorem exists_setLineTimes (hheight : 2 ≤ scene.product.sceneRasterHeight)
    (trgAbsRoot : AbstractedMetadata T) (hfirst : trgAbsRoot.firstLineTime.isSome = true)
    (hlast : trgAbsRoot.lastLineTime.isSome = true) :
    ∃ first last, UtcElems.ofMjd (scene.lineTime region.y) = .ok first ∧
      UtcElems.ofMjd (scene.lineTime (region.y + region.height - 1)) = .ok last ∧
      setLineTimes scene.product scene.firstLineTime.getMjd scene.lastLineTime.getMjd
        (some region.toRectangle) trgAbsRoot =
          .ok { trgAbsRoot with firstLineTime := some first, lastLineTime := some last } := by
  have hregion := region.one_le_height
  have hbottom := region.bottom_le
  have hy := region.y_nonneg
  obtain ⟨first, hfirstTime⟩ := exists_lineTime hheight hy (show region.y < _ by omega)
  obtain ⟨last, hlastTime⟩ := exists_lineTime hheight
    (show 0 ≤ region.y + region.height - 1 by omega) (by omega)
  refine ⟨first, last, hfirstTime, hlastTime, ?_⟩
  obtain ⟨elems, hsome⟩ := Option.isSome_iff_exists.mp hfirst
  obtain ⟨elems', hsome'⟩ := Option.isSome_iff_exists.mp hlast
  -- the last line of the subset, counted from its first
  have hend : (scene.firstLineTime.getMjd : T) +
      (scene.lastLineTime.getMjd - scene.firstLineTime.getMjd) /
        (scene.product.sceneRasterHeight - 1 : Int) * region.y +
      (scene.lastLineTime.getMjd - scene.firstLineTime.getMjd) /
        (scene.product.sceneRasterHeight - 1 : Int) * (region.height - 1 : Int) =
      scene.lineTime (region.y + region.height - 1) := by
    unfold lineTime
    push_cast
    ring
  unfold setLineTimes lineTimeInterval setTime
  dsimp only
  rw [if_neg (by omega), Outcome.ok_bind, hsome, hsome', hend]
  dsimp only
  unfold lineTime at hfirstTime
  rw [hfirstTime, hlastTime]
  rfl

/-! ### Slant ranges -/

omit [IsStrictOrderedRing T] in
variable (scene region) in
/-- Samples from the near edge are in the raster. -/
theorem samplesBefore_mem : 0 ≤ scene.samplesBefore region ∧
    scene.samplesBefore region < scene.product.sceneRasterWidth := by
  have hx := region.x_nonneg
  have hwidth := region.one_le_width
  have hright := region.right_le
  unfold samplesBefore
  split <;> omega

omit [IsStrictOrderedRing T] in
/-- Only at the near edge is the slant range the first one. -/
theorem slantRange_eq_first_iff :
    scene.slantRange 0 = scene.slantRange (scene.samplesBefore region) ↔
      scene.samplesBefore region = 0 := by
  obtain ⟨h0, hlt⟩ := samplesBefore_mem scene region
  constructor
  · intro h
    cases lt_or_eq_of_le h0 with
    | inl hpos => exact absurd h (scene.slantRange_lt 0 _ le_rfl hpos hlt).ne
    | inr hzero => exact hzero.symm
  · intro h
    rw [h]

/-- Slant ranges of evenly spaced samples, by their numbers. -/
theorem slantRange_eq_shift_iff (hslc : scene.metadata.srgrFlag = 0) (columns : Int) :
    scene.slantRange 0 + columns * scene.spacing = scene.slantRange (scene.samplesBefore region) ↔
      columns = scene.samplesBefore region := by
  obtain ⟨h0, hlt⟩ := samplesBefore_mem scene region
  rw [scene.slantRange_even hslc _ h0 hlt, add_right_inj, mul_left_inj' scene.spacing_pos.ne',
    Int.cast_inj]

omit [IsStrictOrderedRing T] in
/-- The slant range of the region's near range column, from the subset's times. -/
theorem slantRange_samplesBefore (hsrgr : scene.metadata.srgrFlag ≠ 0)
    (hgrid : scene.product.slantRangeTime = some grid) {subset : TiePointGrid T}
    (hcut : CutFrom grid subset region.toRectangle) :
    ∃ time, subset.getPixelDoubleAt (if scene.nearRangeOnLeft then 0 else region.width - 1) 0 =
        .ok time ∧
      scene.slantRange (scene.samplesBefore region) = time / 1000000000 * halfLightSpeed := by
  have hx := region.x_nonneg
  have hy := region.y_nonneg
  have hwidth := region.one_le_width
  have hheight := region.one_le_height
  have hright := region.right_le
  have hbottom := region.bottom_le
  -- the near range column is the first of the subset, or the last
  cases hleft : scene.nearRangeOnLeft with
  | true =>
    obtain ⟨time, htime, hrange⟩ := scene.slantRangeTime_eq hsrgr grid hgrid (0 + region.x)
      (0 + region.y) (by omega) (by omega) (by omega) (by omega)
    refine ⟨time, ?_, ?_⟩
    · rw [if_pos rfl, hcut.values 0 0 le_rfl (by omega) le_rfl (by omega)]
      exact htime
    · rw [← hrange]
      unfold samplesBefore fromNearEdge
      rw [hleft, if_pos rfl, if_pos rfl, zero_add]
  | false =>
    obtain ⟨time, htime, hrange⟩ := scene.slantRangeTime_eq hsrgr grid hgrid
      (region.width - 1 + region.x) (0 + region.y) (by omega) (by omega) (by omega) (by omega)
    refine ⟨time, ?_, ?_⟩
    · rw [if_neg Bool.false_ne_true,
        hcut.values (region.width - 1) 0 (by omega) (by omega) le_rfl (by omega)]
      exact htime
    · rw [← hrange]
      unfold samplesBefore fromNearEdge
      rw [hleft, if_neg Bool.false_ne_true, if_neg Bool.false_ne_true]
      congr 1
      omega

omit [IsStrictOrderedRing T] in
theorem halfLightSpeed_ne : (halfLightSpeed : T) ≠ 0 := by
  unfold halfLightSpeed
  norm_num

/-- What the side that is found is. -/
inductive SideFound (scene : SarScene T)
    (region : RegionIn scene.product.sceneRasterWidth scene.product.sceneRasterHeight)
    (side : Bool) : Prop where
  | left (hleft : scene.nearRangeOnLeft = true) (hfound : side = true)
      (hnot : ¬ scene.SideMistaken region)
  | mistaken (hleft : scene.nearRangeOnLeft = true) (hlost : side = false)
      (hmistaken : scene.SideMistaken region)
  | right (hleft : scene.nearRangeOnLeft = false) (hright : side = false)

omit [IsStrictOrderedRing T] in
theorem side_found {side : Bool}
    (hside : side = true ↔ scene.nearRangeOnLeft = true ∧ ¬ scene.SideMistaken region) :
    SideFound scene region side := by
  cases hleft : scene.nearRangeOnLeft with
  | false =>
    cases side with
    | false => exact .right hleft rfl
    | true => exact absurd (hside.mp rfl).1 (by rw [hleft]; decide)
  | true =>
    cases side with
    | true => exact .left hleft rfl (hside.mp rfl).2
    | false => exact .mistaken hleft rfl (not_not.mp fun hnot =>
        Bool.false_ne_true (hside.mpr ⟨hleft, hnot⟩))

omit [IsStrictOrderedRing T] in
/-- The column that is read in a ground range product is the near range one of the region only for a
region at the first column. -/
theorem readColumn_iff {side : Bool}
    (hside : side = true ↔ scene.nearRangeOnLeft = true ∧ ¬ scene.SideMistaken region) :
    ((if side then region.x else region.width - region.x - 1) =
        if scene.nearRangeOnLeft then 0 else region.width - 1) ↔ region.x = 0 := by
  cases side_found hside with
  | right hleft hright =>
    rw [hright, hleft, if_neg Bool.false_ne_true, if_neg Bool.false_ne_true]
    omega
  | left hleft hfound hnot =>
    rw [hfound, hleft, if_pos rfl, if_pos rfl]
  | mistaken hleft hlost hmistaken =>
    have hone := hmistaken.2.1
    rw [hlost, hleft, if_neg Bool.false_ne_true, if_pos rfl]
    omega

omit [IsStrictOrderedRing T] in
/-- The samples that are added in another product, and those before the region. -/
theorem addedColumns_iff {side : Bool}
    (hside : side = true ↔ scene.nearRangeOnLeft = true ∧ ¬ scene.SideMistaken region) :
    ((if side then region.x else region.width - region.x - 1) = scene.samplesBefore region) ↔
      if scene.nearRangeOnLeft then scene.SideMistaken region → region.x = 0
      else 2 * region.width = scene.product.sceneRasterWidth + 1 := by
  unfold samplesBefore
  cases side_found hside with
  | right hleft hright =>
    rw [hright, hleft, if_neg Bool.false_ne_true, if_neg Bool.false_ne_true,
      if_neg Bool.false_ne_true]
    omega
  | left hleft hfound hnot =>
    rw [hfound, hleft, if_pos rfl, if_pos rfl, if_pos rfl]
    exact iff_of_true rfl fun hmistaken => absurd hmistaken hnot
  | mistaken hleft hlost hmistaken =>
    have hone := hmistaken.2.1
    rw [hlost, hleft, if_neg Bool.false_ne_true, if_pos rfl, if_pos rfl]
    constructor
    · intro hshift _
      omega
    · intro hzero
      have hfirst := hzero hmistaken
      omega

/-- The slant range that is set, and when it is that of the near range column. -/
theorem exists_setSlantRange {target : Product T} (h : CutProduct scene region target) {side : Bool}
    (hside : side = true ↔ scene.nearRangeOnLeft = true ∧ ¬ scene.SideMistaken region)
    (trgAbsRoot : AbstractedMetadata T)
    (htrg : trgAbsRoot.slantRangeToFirstPixel = scene.metadata.slantRangeToFirstPixel) :
    ∃ distance, setSlantRange target scene.metadata (some region.toRectangle) side trgAbsRoot =
        .ok { trgAbsRoot with slantRangeToFirstPixel := some distance } ∧
      (distance = scene.slantRange (scene.samplesBefore region) ↔ scene.SlantRangeKept region) := by
  have hfirst := scene.slantRange_first
  rw [← htrg] at hfirst
  unfold setSlantRange
  -- without tie points of the slant range time the first pixel's range stays as it was
  cases h.slantRangeTime with
  | inl hnone =>
    refine ⟨scene.slantRange 0, ?_, ?_⟩
    · rw [hnone.2, hfirst]
      show Outcome.ok trgAbsRoot = _
      rw [← hfirst]
    · rw [slantRange_eq_first_iff]
      unfold SlantRangeKept
      rw [hnone.1]
      exact Iff.rfl
  | inr hsome =>
    obtain ⟨grid, subset, hgrid, hsubset, hcut⟩ := hsome
    rw [hsubset, hfirst]
    dsimp only
    unfold slantRangeDist SlantRangeKept
    rw [hgrid, h.width]
    cases eq_or_ne scene.metadata.srgrFlag 0 with
    | inr hsrgr =>
      rw [if_pos hsrgr]
      -- in ground range the time is read in the subset's first column
      have hread : subset.getPixelDoubleAt
          (if side then region.x else region.width - region.x - 1) region.y = .ok _ :=
        subset.getPixelDouble_eq _ _
      obtain ⟨time, htime, hrange⟩ := slantRange_samplesBefore hsrgr hgrid hcut
      refine ⟨_, by dsimp only; rw [hread]; rfl, ?_⟩
      rw [hrange, mul_left_inj' halfLightSpeed_ne, div_left_inj' (by norm_num),
        time_eq_iff hsrgr hgrid hcut hread htime, readColumn_iff hside]
      show _ ↔ if scene.metadata.srgrFlag ≠ 0 then region.x = 0 else _
      rw [if_pos hsrgr]
    | inl hslc =>
      -- in slant range the columns before the subset are added
      rw [if_neg (not_not.mpr hslc), scene.slantRange_first, scene.range_spacing]
      refine ⟨_, rfl, ?_⟩
      rw [Option.getD_some, slantRange_eq_shift_iff hslc, addedColumns_iff hside]
      show _ ↔ if scene.metadata.srgrFlag ≠ 0 then region.x = 0 else _
      rw [if_neg (not_not.mpr hslc)]

/-! ### The origins of ground ranges -/

/-- Two shifts of the origins agree when they are by as many samples, or there are no origins. -/
theorem shiftedOrigins_eq_iff (columns columns' : Int) :
    (scene.metadata.srgrCoefficients.map (fun lists => lists.map fun groundRangeOrigin =>
        some (groundRangeOrigin.getD 0 + columns * scene.spacing)) =
      scene.metadata.srgrCoefficients.map fun lists => lists.map fun groundRangeOrigin =>
        some (groundRangeOrigin.getD 0 + columns' * scene.spacing)) ↔
      scene.metadata.srgrCoefficients.getD [] = [] ∨ columns = columns' := by
  cases scene.metadata.srgrCoefficients with
  | none => exact iff_of_true rfl (.inl rfl)
  | some lists =>
    rw [Option.map_some, Option.map_some, Option.some_inj, Option.getD_some]
    cases lists with
    | nil => exact iff_of_true rfl (.inl rfl)
    | cons first rest =>
      constructor
      · intro hsame
        have hfirst := Option.some.inj (List.cons.inj hsame).1
        rw [add_right_inj, mul_left_inj' scene.spacing_pos.ne', Int.cast_inj] at hfirst
        exact .inr hfirst
      · intro hcolumns
        cases hcolumns with
        | inl hnil => cases hnil
        | inr hcolumns => rw [hcolumns]

/-- The samples by which the origins are shifted. -/
theorem origins_iff {target : Product T} (h : CutProduct scene region target) {side : Bool}
    (hside : side = true ↔ scene.nearRangeOnLeft = true ∧ ¬ scene.SideMistaken region)
    (trgAbsRoot : AbstractedMetadata T)
    (hspacing : trgAbsRoot.rangeSpacing = scene.metadata.rangeSpacing)
    (hlists : trgAbsRoot.srgrCoefficients = scene.metadata.srgrCoefficients) :
    ((setSubsetSrgrCoefficients scene.product target (some region.toRectangle) trgAbsRoot
        side).srgrCoefficients = scene.metadata.srgrCoefficients.map fun lists =>
          lists.map fun groundRangeOrigin =>
            some (groundRangeOrigin.getD 0 + scene.samplesBefore region * scene.spacing)) ↔
      scene.OriginsKept region := by
  unfold setSubsetSrgrCoefficients OriginsKept
  dsimp only
  rw [hspacing, scene.range_spacing, Option.getD_some, hlists, h.width,
    shiftedOrigins_eq_iff]
  unfold samplesBefore
  -- the side is found unless the single column is mistaken
  cases side_found hside with
  | right hleft hright =>
    rw [hright, hleft, if_neg Bool.false_ne_true]
    refine iff_of_true (.inr rfl) fun hmistaken => ?_
    rw [hmistaken.1] at hleft
    cases hleft
  | left hleft hfound hnot =>
    rw [hfound, hleft, if_pos rfl]
    exact iff_of_true (.inr rfl) fun hmistaken => absurd hmistaken hnot
  | mistaken hleft hlost hmistaken =>
    have hone := hmistaken.2.1
    rw [hlost, hleft, if_neg Bool.false_ne_true, if_pos rfl]
    constructor
    · intro hcolumns _
      cases hcolumns with
      | inl hnil => exact .inl hnil
      | inr hcolumns => exact .inr (by omega)
    · intro hkept
      cases hkept hmistaken with
      | inl hnil => exact .inl hnil
      | inr hwidth => exact .inr (by omega)

/-! ### The subset -/

omit [IsStrictOrderedRing T] in
/-- The steps of a SAR product's update. -/
theorem subsetMetadata_eq {target : Product T} {rawStorageSize : Int}
    (htarget : createProduct scene.product (scene.subsetDef region) rawStorageSize = .ok target)
    {side : Bool} (hside : isNearRangeOnLeft target = .ok side) :
    scene.subsetMetadata region rawStorageSize =
      (setLineTimes scene.product scene.firstLineTime.getMjd scene.lastLineTime.getMjd
          (some region.toRectangle) (setRaster target (some region.toRectangle) scene.metadata) >>=
        fun trgAbsRoot => setSlantRange target scene.metadata (some region.toRectangle) side
            { trgAbsRoot with
              totalSize := setElemUInt trgAbsRoot.totalSize target.rawStorageSize } >>=
          fun trgAbsRoot => .ok (setSubsetSrgrCoefficients scene.product target
            (some region.toRectangle) trgAbsRoot side)) := by
  unfold subsetMetadata readProductNodes
  rw [htarget, Outcome.ok_bind]
  unfold updateMetadata
  have hsar : ¬ (setRaster target (some region.toRectangle) scene.metadata).radarFrequency.getD
      99999 = 99999 := scene.is_sar
  show (if (setRaster target (some region.toRectangle) scene.metadata).radarFrequency.getD
      99999 = 99999 then _ else _) = _
  rw [if_neg hsar, hside]
  rfl

/-- The metadata describes the subset. -/
def MetadataDescribes (scene : SarScene T)
    (region : RegionIn scene.product.sceneRasterWidth scene.product.sceneRasterHeight)
    (rawStorageSize : Int) : Prop :=
  ∃ metadata, scene.subsetMetadata region rawStorageSize = .ok metadata ∧
    scene.Describes region metadata

/-- With one line there is no interval. -/
theorem not_metadataDescribes_of_one_line (hheight : scene.product.sceneRasterHeight = 1)
    (rawStorageSize : Int) : ¬ scene.MetadataDescribes region rawStorageSize := by
  obtain ⟨target, htarget, hcut⟩ := exists_createProduct scene region rawStorageSize
  obtain ⟨side, hside, -⟩ := exists_isNearRangeOnLeft hcut
  unfold MetadataDescribes
  rw [subsetMetadata_eq htarget hside]
  rintro ⟨metadata, hok, -⟩
  unfold setLineTimes lineTimeInterval at hok
  dsimp only at hok
  rw [if_pos (by omega)] at hok
  cases hok

theorem metadataDescribes_iff_of_two_lines (htwo : 2 ≤ scene.product.sceneRasterHeight)
    (rawStorageSize : Int) :
    scene.MetadataDescribes region rawStorageSize ↔
      scene.SlantRangeKept region ∧ scene.OriginsKept region := by
  obtain ⟨target, htarget, hcut⟩ := exists_createProduct scene region rawStorageSize
  obtain ⟨side, hside, hsideIff⟩ := exists_isNearRangeOnLeft hcut
  unfold MetadataDescribes
  rw [subsetMetadata_eq htarget hside]
  -- the line times change nothing that the slant range depends on
  obtain ⟨first, last, hfirst, hlast, htimes⟩ := exists_setLineTimes region htwo
    (setRaster target (some region.toRectangle) scene.metadata) scene.has_first_line_time
    scene.has_last_line_time
  rw [htimes, Outcome.ok_bind]
  let updated : AbstractedMetadata T :=
    { setRaster target (some region.toRectangle) scene.metadata with
      firstLineTime := some first
      lastLineTime := some last
      totalSize := setElemUInt scene.metadata.totalSize target.rawStorageSize }
  obtain ⟨distance, hdistance, hslant⟩ := exists_setSlantRange hcut hsideIff updated rfl
  have horigins := origins_iff hcut hsideIff
    { updated with slantRangeToFirstPixel := some distance } rfl rfl
  -- the metadata are those after the last step
  have hok : ∀ metadata, (setSlantRange target scene.metadata (some region.toRectangle) side
      updated >>= fun trgAbsRoot => Outcome.ok (setSubsetSrgrCoefficients scene.product target
        (some region.toRectangle) trgAbsRoot side)) = .ok metadata ↔
      setSubsetSrgrCoefficients scene.product target (some region.toRectangle)
        { updated with slantRangeToFirstPixel := some distance } side = metadata := by
    intro metadata
    rw [hdistance, Outcome.ok_bind]
    exact ⟨Outcome.ok.inj, congrArg Outcome.ok⟩
  constructor
  · rintro ⟨metadata, hmetadata, hdescribes⟩
    obtain rfl := (hok metadata).mp hmetadata
    have hrange : some distance = some (scene.slantRange (scene.samplesBefore region)) :=
      hdescribes.slant_range
    exact ⟨hslant.mp (Option.some.inj hrange),
      horigins.mp hdescribes.ground_range_origins⟩
  · rintro ⟨hkept, hkeptOrigins⟩
    refine ⟨_, (hok _).mpr rfl, ⟨first, hfirst, rfl⟩, ⟨last, hlast, rfl⟩, ?_,
      horigins.mpr hkeptOrigins⟩
    exact congrArg some (hslant.mpr hkept)

/-- **The metadata describes the subset** exactly where there are two lines or more and both the
slant range and the origins are kept. -/
theorem metadataDescribes_iff (scene : SarScene T)
    (region : RegionIn scene.product.sceneRasterWidth scene.product.sceneRasterHeight)
    (rawStorageSize : Int) :
    scene.MetadataDescribes region rawStorageSize ↔
      2 ≤ scene.product.sceneRasterHeight ∧ scene.SlantRangeKept region ∧
        scene.OriginsKept region := by
  have hone := scene.one_le_height
  cases lt_or_eq_of_le hone with
  | inr hheight =>
    exact iff_of_false (not_metadataDescribes_of_one_line hheight.symm rawStorageSize)
      fun h => absurd h.1 (by omega)
  | inl htwo =>
    rw [metadataDescribes_iff_of_two_lines htwo]
    exact ⟨fun h => ⟨htwo, h⟩, fun h => h.2⟩

end SarScene

end Grids

/-! ## A product in ground range -/

section Example

/-- A tie point every two pixels. -/
def timeGrid : TiePointGrid ℚ :=
  GridGeometry.withImage ⟨"slant_range_time", ⟨3, 1 / 2, 2, threePoints_le, by norm_num⟩,
    ⟨3, 1 / 2, 2, threePoints_le, by norm_num⟩, none⟩ fun a _ => a

theorem timeGrid_node {a b : Int} (ha : 0 ≤ a) (ha' : a < timeGrid.x.size) (hb : 0 ≤ b)
    (hb' : b < timeGrid.y.size) : timeGrid.node a b = (a : ℚ) := by
  have hrows : timeGrid.tiePoints =
      rowMajor timeGrid.x.size timeGrid.y.size fun a _ => (a : ℚ) := rfl
  exact TiePointGrid.node_eq hrows ha ha' hb hb'

theorem timeGrid_getPixelDoubleAt (column row : Int) :
    timeGrid.getPixelDoubleAt column row = .ok ((column : ℚ) / 2) := by
  have hvalue := getPixelDouble_of_columns (f := fun a => (a : ℚ))
    (fun a b ha ha' hb hb' => timeGrid_node ha ha' hb hb') ((column : ℚ) + 1 / 2) (row + 1 / 2)
  have hcell : ∀ i (t : ℚ), cellValue (fun a => (a : ℚ)) i t = t := by
    intro i t
    unfold cellValue
    push_cast
    ring
  rw [hcell] at hvalue
  refine hvalue.trans (congrArg Outcome.ok ?_)
  show ((column : ℚ) + 1 / 2 - 1 / 2) / 2 = column / 2
  ring

theorem timeGrid_coversRaster : timeGrid.CoversRaster 4 2 := by
  refine ⟨⟨?_, ?_⟩, ⟨?_, ?_⟩⟩
  all_goals
    unfold GridAxis.index
    norm_num [timeGrid, GridGeometry.withImage]

/-- Four columns with near range on the left. -/
def groundRangeScene : SarScene ℚ where
  product := ⟨4, 2, some timeGrid, none, 0⟩
  metadata := {
    numOutputLines := some 2
    numSamplesPerLine := some 4
    subsetOffsetX := some 0
    subsetOffsetY := some 0
    radarFrequency := some 5405
    firstLineTime := some ⟨0, 0, 0⟩
    lastLineTime := some ⟨0, 1, 0⟩
    totalSize := none
    slantRangeToFirstPixel := some 0
    srgrFlag := 1
    rangeSpacing := some 10
    srgrCoefficients := none }
  firstLineTime := ⟨0, 0, 0, S1tbx.wholeSecond_lt, S1tbx.epoch_in_calendar⟩
  lastLineTime := ⟨0, 1, 0, S1tbx.wholeSecond_lt, by decide⟩
  nearRangeOnLeft := true
  spacing := 10
  slantRange n := (n : ℚ) / 2 / 1000000000 * halfLightSpeed
  one_le_width := by decide
  one_le_height := by decide
  is_sar := by norm_num
  has_first_line_time := rfl
  has_last_line_time := rfl
  spacing_pos := by norm_num
  range_spacing := rfl
  slantRange_first := by norm_num
  slantRange_lt n n' _ hlt _ := by
    have hcast : (n : ℚ) < n' := by exact_mod_cast hlt
    unfold halfLightSpeed
    linarith
  slantRange_even hslc := absurd hslc (by decide)
  slantRangeTime_covers grid hgrid := by
    cases hgrid
    exact timeGrid_coversRaster
  slantRangeTime_columns _ grid hgrid := by
    cases hgrid
    refine ⟨fun a => a, fun a b ha ha' hb hb' => timeGrid_node ha ha' hb hb', fun a _ _ => ?_⟩
    show (a : ℚ) < ((a + 1 : Int) : ℚ)
    exact_mod_cast Int.lt_succ a
  slantRangeTime_eq _ grid hgrid column row _ _ _ _ := by
    cases hgrid
    exact ⟨_, timeGrid_getPixelDoubleAt column row, rfl⟩
  incidentAngle_covers grid hgrid := by cases hgrid
  incidentAngle_ascends grid hgrid := by cases hgrid
  left_of_none _ := rfl

/-- The columns from the second on. -/
def fromSecondColumn : RegionIn 4 2 :=
  ⟨⟨1, 0, 2, 2⟩, by decide, by decide, by decide, by decide, by decide, by decide⟩

theorem metadataDescribes_groundRange :
    groundRangeScene.MetadataDescribes fromSecondColumn 0 ↔
      2 ≤ groundRangeScene.product.sceneRasterHeight ∧
        groundRangeScene.SlantRangeKept fromSecondColumn ∧
          groundRangeScene.OriginsKept fromSecondColumn :=
  SarScene.metadataDescribes_iff groundRangeScene fromSecondColumn 0

/-- The time of the second column is read once more as many columns on. -/
theorem not_metadataDescribes_groundRange :
    ¬ groundRangeScene.MetadataDescribes fromSecondColumn 0 := by
  intro h
  have hkept := ((SarScene.metadataDescribes_iff_of_two_lines (by decide) 0).mp h).1
  have hzero : (1 : Int) = 0 := hkept
  exact absurd hzero (by decide)

end Example

end Alus.SnapEngine
