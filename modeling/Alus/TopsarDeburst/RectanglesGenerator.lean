import Alus.Lib.Splits
import Alus.Util.ShapesUtil

/-!
# Rectangles of a raster

`TOPSARDeburstRectanglesGenerator` and `GenerateRectanglesForRaster` are two copies of one
algorithm. The number of rectangles in each direction passes through single precision and 16 bits:
`CountExact` says when it is the ceiling of the quotient, and then the rectangles partition the
raster.
-/

namespace Alus.TopsarDeburst

open Alus.Lib Alus.Shapeutils

structure TOPSARDeburstRectanglesGenerator where
  bandXSize : PositiveInt
  bandYSize : PositiveInt
  rectangleXSize : PositiveInt
  rectangleYSize : PositiveInt

namespace TOPSARDeburstRectanglesGenerator

def getNumberOfRectanglesDim (bandSizeDim rectangleSizeDim : Int) : Outcome Int :=
  rectangleCount bandSizeDim rectangleSizeDim

/-- Unlike its copy, this one multiplies the two counts in `int` for the space to reserve. -/
def generateRectangles (g : TOPSARDeburstRectanglesGenerator) : Outcome (List Rectangle) := do
  let xRectangles ← getNumberOfRectanglesDim g.bandXSize g.rectangleXSize
  let yRectangles ← getNumberOfRectanglesDim g.bandYSize g.rectangleYSize
  let _ ← int32 (yRectangles * xRectangles)
  rectangleLoops g.bandXSize g.bandYSize g.rectangleXSize g.rectangleYSize xRectangles yRectangles

end TOPSARDeburstRectanglesGenerator

/-! ## The count -/

/-- Half the distance from an integer to the next larger number in single precision. -/
def halfStep (n : Int) : ℚ := 2 ^ ((Nat.log2 n.toNat : Int) - 24)

/-- The count is the ceiling of the quotient: it fits 16 bits, and the quotient of the two sizes in
single precision is neither rounded up over the ceiling nor down to the integer below it. -/
structure CountExact (rasterSize rectangleSize : Int) : Prop where
  fits : ⌈(rasterSize / rectangleSize : ℚ)⌉ ≤ 32767
  not_above : Binary32.ofInt rasterSize ≤ Binary32.ofInt rectangleSize *
    (⌈(rasterSize / rectangleSize : ℚ)⌉ + halfStep ⌈(rasterSize / rectangleSize : ℚ)⌉)
  not_below : ⌈(rasterSize / rectangleSize : ℚ)⌉ = 1 ∨ Binary32.ofInt rectangleSize *
    ((⌈(rasterSize / rectangleSize : ℚ)⌉ - 1 : Int) +
      halfStep (⌈(rasterSize / rectangleSize : ℚ)⌉ - 1)) < Binary32.ofInt rasterSize

/-- What is rounded to at most a 16-bit integer. -/
theorem round_le_iff_halfStep {q : ℚ} {n : Int} (h1 : 1 ≤ n) (hn : n ≤ 32767) (hq : 0 < q) :
    Binary32.round q ≤ n ↔ q ≤ n + halfStep n := by
  obtain ⟨k, rfl⟩ := Int.eq_ofNat_of_zero_le (show 0 ≤ n by omega)
  have hk : k ≠ 0 := by omega
  have hlog : Nat.log2 k ≤ 22 := by
    have hpow := Nat.log2_self_le hk
    by_contra hbig
    have hmono : 2 ^ 23 ≤ 2 ^ Nat.log2 k := Nat.pow_le_pow_right (by norm_num) (by omega)
    omega
  have hiff := Binary32.round_le_iff (Nat.log2_self_le hk) Nat.lt_log2_self hlog hq
  rw [halfStep, Int.toNat_natCast]
  exact_mod_cast hiff

section Count

variable {rasterSize rectangleSize : Int} (hraster : 0 < rasterSize)
  (hrectangle : 0 < rectangleSize)
include hraster hrectangle

theorem ceil_pos : 1 ≤ ⌈(rasterSize / rectangleSize : ℚ)⌉ := by
  have hpos : (0 : ℚ) < rasterSize / rectangleSize :=
    div_pos (by exact_mod_cast hraster) (by exact_mod_cast hrectangle)
  exact Int.ceil_pos.mpr hpos

/-- **When the count is the exact ceiling of the quotient.** -/
theorem rectangleCount_eq_iff : rectangleCount rasterSize rectangleSize =
    .ok ⌈(rasterSize / rectangleSize : ℚ)⌉ ↔ CountExact rasterSize rectangleSize := by
  have hk := ceil_pos hraster hrectangle
  set k := ⌈(rasterSize / rectangleSize : ℚ)⌉ with hkdef
  have hA : 0 < Binary32.ofInt rasterSize := Binary32.round_pos (by exact_mod_cast hraster)
  have hB : 0 < Binary32.ofInt rectangleSize := Binary32.round_pos (by exact_mod_cast hrectangle)
  have hq := div_pos hA hB
  set q := Binary32.ofInt rasterSize / Binary32.ofInt rectangleSize with hqdef
  -- the two comparisons of the rounded quotient, without the rounding
  have habove : k ≤ 32767 → (Binary32.round q ≤ k ↔ Binary32.ofInt rasterSize ≤
      Binary32.ofInt rectangleSize * (k + halfStep k)) := fun hfits => by
    rw [round_le_iff_halfStep hk hfits hq, hqdef, div_le_iff₀' hB]
  have hbelow : k ≤ 32767 → (((k : ℚ) - 1 < Binary32.round q) ↔ k = 1 ∨
      Binary32.ofInt rectangleSize * ((k - 1 : Int) + halfStep (k - 1)) <
        Binary32.ofInt rasterSize) := fun hfits => by
    by_cases hone : k = 1
    · have hround := Binary32.round_pos hq
      simpa [hone] using hround
    · have hiff := round_le_iff_halfStep (show 1 ≤ k - 1 by omega) (by omega) hq
      rw [hqdef, div_le_iff₀' hB, ← hqdef] at hiff
      rw [or_iff_right hone, ← not_le, ← not_le, ← hiff]
      push_cast
      rfl
  rw [rectangleCount, int16_eq_ok, ← hqdef, eq_comm, Int.ceil_eq_iff]
  constructor
  · rintro ⟨hfits, hlow, hhigh⟩
    have hceil : ⌈Binary32.round q⌉ = k := Int.ceil_eq_iff.mpr ⟨hlow, hhigh⟩
    have hshort : k ≤ 32767 := by
      have h := fits16_iff.mp hfits
      omega
    exact ⟨hshort, (habove hshort).mp hhigh, (hbelow hshort).mp hlow⟩
  · rintro ⟨hshort, hhigh, hlow⟩
    have hlow' := (hbelow hshort).mpr hlow
    have hhigh' := (habove hshort).mpr hhigh
    have hceil : ⌈Binary32.round q⌉ = k := Int.ceil_eq_iff.mpr ⟨hlow', hhigh'⟩
    exact ⟨fits16_iff.mpr (by omega), hlow', hhigh'⟩

omit hraster in
/-- The last rectangle begins in the raster. -/
theorem last_start_lt :
    rectangleSize * (⌈(rasterSize / rectangleSize : ℚ)⌉ - 1) < rasterSize := by
  have hlt := Int.ceil_lt_add_one (rasterSize / rectangleSize : ℚ)
  rw [← sub_lt_iff_lt_add, lt_div_iff₀' (by exact_mod_cast hrectangle)] at hlt
  exact_mod_cast hlt

end Count

/-! ## The rectangles -/

section Loops

variable {rasterSize rectangleSize rectangles index : Int}

/-- The ends of the rectangles of one index, and what they span. -/
theorem rectangle_ends (hraster : 0 < rasterSize) (hfits : rasterSize < 2147483648)
    (hrectangle : 0 < rectangleSize) (hlast : rectangleSize * (rectangles - 1) < rasterSize)
    (hindex : index ∈ intRange 0 rectangles) :
    rectangleMin rasterSize rectangleSize index = .ok (rectangleSize * index) ∧
    ∃ max, rectangleMax rasterSize rectangleSize rectangles index (rectangleSize * index) =
        .ok max ∧
      rectangleSpan (rectangleSize * index) max =
        .ok (if index = rectangles - 1 then rasterSize - rectangleSize * index
          else rectangleSize) := by
  obtain ⟨h0, hlt⟩ := mem_intRange.mp hindex
  have hstart : 0 ≤ rectangleSize * index := Int.mul_nonneg hrectangle.le h0
  have hmono : rectangleSize * index ≤ rectangleSize * (rectangles - 1) :=
    Int.mul_le_mul_of_nonneg_left (by omega) hrectangle.le
  constructor
  · rw [rectangleMin]
    split
    next hlarge =>
      -- a rectangle as large as the raster is the only one
      have hzero : index = 0 := by
        by_contra hne
        have hnext : rectangleSize * 1 ≤ rectangleSize * index :=
          Int.mul_le_mul_of_nonneg_left (by omega) hrectangle.le
        omega
      rw [hzero, Int.mul_zero]
    next =>
      split
      next hzero => rw [hzero, Int.mul_zero]
      next => exact int32_of_bounds (by omega) (by omega)
  · by_cases hfinal : index = rectangles - 1
    · refine ⟨rasterSize - 1, ?_, ?_⟩
      · rw [rectangleMax, if_pos hfinal, ite_self]
        exact int32_of_bounds (by omega) (by omega)
      · rw [if_pos hfinal, rectangleSpan, int32_of_bounds (by omega) (by omega),
          Outcome.ok_bind, int32_of_bounds (by omega) (by omega)]
        exact congrArg Outcome.ok (by omega)
    · have hnext : rectangleSize * (index + 1) ≤ rectangleSize * (rectangles - 1) :=
        Int.mul_le_mul_of_nonneg_left (by omega) hrectangle.le
      rw [Int.mul_add, Int.mul_one] at hnext
      refine ⟨rectangleSize * index + rectangleSize - 1, ?_, ?_⟩
      · rw [rectangleMax, if_neg (by omega), if_neg hfinal,
          int32_of_bounds (by omega) (by omega), Outcome.ok_bind]
        exact int32_of_bounds (by omega) (by omega)
      · rw [if_neg hfinal, rectangleSpan, int32_of_bounds (by omega) (by omega),
          Outcome.ok_bind, int32_of_bounds (by omega) (by omega)]
        exact congrArg Outcome.ok (by omega)

end Loops

/-- The loops list the rectangles over the pieces, row by row. -/
theorem rectangleLoops_eq (bandX bandY rectangleX rectangleY : PositiveInt)
    {xRectangles yRectangles : Int}
    (hx : rectangleX.1 * (xRectangles - 1) < bandX)
    (hy : rectangleY.1 * (yRectangles - 1) < bandY) :
    rectangleLoops bandX bandY rectangleX rectangleY xRectangles yRectangles =
      .ok (gridRectangles (pieces bandX rectangleX xRectangles)
        (pieces bandY rectangleY yRectangles)) := by
  rw [rectangleLoops, Outcome.foldlM_push (g := fun rectangleY' =>
    (pieces bandX rectangleX xRectangles).map fun column => ⟨column.1, rectangleY.1 * rectangleY',
      column.2, if rectangleY' = yRectangles - 1 then bandY.1 - rectangleY.1 * rectangleY'
        else rectangleY.1⟩), List.nil_append, gridRectangles]
  · rw [pieces.eq_def bandY, List.flatMap_map]
  · intro row hrow rectangles
    obtain ⟨hmin, yMax, hmax, hheight⟩ := rectangle_ends bandY.2.1 bandY.2.2 rectangleY.2.1 hy hrow
    rw [hmin, Outcome.ok_bind, hmax, Outcome.ok_bind, Outcome.foldlM_push (g := fun rectangleX' =>
      [⟨rectangleX.1 * rectangleX', rectangleY.1 * row, if rectangleX' = xRectangles - 1 then
        bandX.1 - rectangleX.1 * rectangleX' else rectangleX.1, if row = yRectangles - 1 then
        bandY.1 - rectangleY.1 * row else rectangleY.1⟩])]
    · rw [pieces, List.map_map, List.map_eq_flatMap]
      rfl
    · intro column hcolumn rectangles
      obtain ⟨hmin', xMax, hmax', hwidth⟩ :=
        rectangle_ends bandX.2.1 bandX.2.2 rectangleX.2.1 hx hcolumn
      rw [hmin', Outcome.ok_bind, hmax', Outcome.ok_bind, hwidth, Outcome.ok_bind, hheight]
      rfl

/-! ## The partition -/

namespace TOPSARDeburstRectanglesGenerator

/-- The two numbers of rectangles are the ceilings of the quotients, and both functions return one
list, which partitions the raster. -/
def PartitionsRaster (g : TOPSARDeburstRectanglesGenerator) : Prop :=
  rectangleCount g.bandXSize g.rectangleXSize = .ok ⌈(g.bandXSize.1 / g.rectangleXSize.1 : ℚ)⌉ ∧
  rectangleCount g.bandYSize g.rectangleYSize = .ok ⌈(g.bandYSize.1 / g.rectangleYSize.1 : ℚ)⌉ ∧
  ∃ rectangles, g.generateRectangles = .ok rectangles ∧
    generateRectanglesForRaster g.bandXSize g.bandYSize g.rectangleXSize g.rectangleYSize =
      .ok rectangles ∧
    IsPartition g.bandXSize g.bandYSize rectangles

/-- **When the rectangles partition the raster**: exactly when both counts are exact. -/
theorem partitionsRaster_iff (g : TOPSARDeburstRectanglesGenerator) : g.PartitionsRaster ↔
    CountExact g.bandXSize g.rectangleXSize ∧ CountExact g.bandYSize g.rectangleYSize := by
  have hxiff := rectangleCount_eq_iff g.bandXSize.2.1 g.rectangleXSize.2.1
  have hyiff := rectangleCount_eq_iff g.bandYSize.2.1 g.rectangleYSize.2.1
  constructor
  · rintro ⟨hx, hy, -⟩
    exact ⟨hxiff.mp hx, hyiff.mp hy⟩
  · rintro ⟨hxexact, hyexact⟩
    have hx := hxiff.mpr hxexact
    have hy := hyiff.mpr hyexact
    have hxpos := ceil_pos g.bandXSize.2.1 g.rectangleXSize.2.1
    have hypos := ceil_pos g.bandYSize.2.1 g.rectangleYSize.2.1
    have hxlast : g.rectangleXSize.1 * (⌈(g.bandXSize.1 / g.rectangleXSize.1 : ℚ)⌉ - 1) <
        g.bandXSize := last_start_lt g.rectangleXSize.2.1
    have hylast : g.rectangleYSize.1 * (⌈(g.bandYSize.1 / g.rectangleYSize.1 : ℚ)⌉ - 1) <
        g.bandYSize := last_start_lt g.rectangleYSize.2.1
    have hxfits := hxexact.fits
    have hyfits := hyexact.fits
    have hloops := rectangleLoops_eq g.bandXSize g.bandYSize g.rectangleXSize g.rectangleYSize
      hxlast hylast
    set xRectangles := ⌈(g.bandXSize.1 / g.rectangleXSize.1 : ℚ)⌉
    set yRectangles := ⌈(g.bandYSize.1 / g.rectangleYSize.1 : ℚ)⌉
    refine ⟨hx, hy, gridRectangles (pieces g.bandXSize g.rectangleXSize xRectangles)
      (pieces g.bandYSize g.rectangleYSize yRectangles), ?_, ?_, ?_⟩
    -- the product of two positive 16-bit counts
    · have hproduct : Fits 32 (yRectangles * xRectangles) := by
        rw [fits32_iff]
        constructor <;> nlinarith
      rw [generateRectangles, getNumberOfRectanglesDim, hx, Outcome.ok_bind,
        getNumberOfRectanglesDim, hy, Outcome.ok_bind, int32_of_fits hproduct, Outcome.ok_bind]
      exact hloops
    · rw [generateRectanglesForRaster, hx, Outcome.ok_bind, hy, Outcome.ok_bind]
      exact hloops
    · have hpartition := partitionsArea_gridRectangles
        (splits_pieces g.rectangleXSize.2.1 hxpos hxlast)
        (splits_pieces g.rectangleYSize.2.1 hypos hylast)
      rw [Int.sub_zero, Int.sub_zero] at hpartition
      exact hpartition.isPartition

/-- 40000 rectangles of one column are more than 16 bits count. In single precision 16777223 columns
are 16777224, and 113 rectangles of 148471 columns become 114, the last one without a column. -/
theorem not_partitionsRaster :
    ¬ PartitionsRaster ⟨⟨40000, by decide⟩, ⟨1, by decide⟩, ⟨1, by decide⟩, ⟨1, by decide⟩⟩ ∧
    ¬ PartitionsRaster
      ⟨⟨16777223, by decide⟩, ⟨1, by decide⟩, ⟨148471, by decide⟩, ⟨1, by decide⟩⟩ := by
  constructor
  · intro h
    exact absurd h.1 (by decide +kernel)
  · intro h
    exact absurd h.1 (by decide +kernel)

end TOPSARDeburstRectanglesGenerator

end Alus.TopsarDeburst
