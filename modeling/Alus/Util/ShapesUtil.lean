import Alus.Lib.Binary32
import Alus.Lib.Machine
import Alus.Lib.Tiling

/-!
# Rectangle shapes

`util/common/include/shapes_util.h`. The right and lower edges are added up in `int` before they are
widened, so that an edge beyond its range is undefined. The number of rectangles in a row or a
column is a quotient in single precision, rounded up and converted to 16 bits.
-/

namespace Alus.Shapeutils

open Alus.Lib

/-! ## Intersections -/

/-- The edges behind the last column and the last row are `int` values. -/
structure EdgesFit (r : Rectangle) : Prop where
  right : Fits 32 (r.x + r.width)
  lower : Fits 32 (r.y + r.height)

instance (r : Rectangle) : Decidable (EdgesFit r) :=
  decidable_of_iff (Fits 32 (r.x + r.width) ∧ Fits 32 (r.y + r.height))
    ⟨fun h => ⟨h.1, h.2⟩, fun h => ⟨h.1, h.2⟩⟩

theorem edgesFit_mk {x y width height : Int}
    (hright : -2147483648 ≤ x + width ∧ x + width < 2147483648)
    (hlower : -2147483648 ≤ y + height ∧ y + height < 2147483648) :
    EdgesFit ⟨x, y, width, height⟩ :=
  ⟨fits32_iff.mpr hright, fits32_iff.mpr hlower⟩

/-- The last lines of `GetIntersection`, for one of the sizes. -/
def clampSize (size : Int) : Int := if size < -2147483648 then -2147483648 else size

/-- `GetIntersection`. -/
def getIntersection (rectangle1 rectangle2 : Rectangle) : Outcome Rectangle := do
  let targetWidth ← int32 (rectangle1.x + rectangle1.width)
  let targetHeight ← int32 (rectangle1.y + rectangle1.height)
  let rx2 ← int32 (rectangle2.x + rectangle2.width)
  let ry2 ← int32 (rectangle2.y + rectangle2.height)
  let targetX := if rectangle1.x < rectangle2.x then rectangle2.x else rectangle1.x
  let targetY := if rectangle1.y < rectangle2.y then rectangle2.y else rectangle1.y
  let targetWidth := if targetWidth > rx2 then rx2 else targetWidth
  let targetHeight := if targetHeight > ry2 then ry2 else targetHeight
  return ⟨targetX, targetY, clampSize (targetWidth - targetX), clampSize (targetHeight - targetY)⟩

/-- The intersection in unbounded integers. -/
def overlap (r1 r2 : Rectangle) : Rectangle :=
  ⟨max r1.x r2.x, max r1.y r2.y, min (r1.x + r1.width) (r2.x + r2.width) - max r1.x r2.x,
    min (r1.y + r1.height) (r2.y + r2.height) - max r1.y r2.y⟩

theorem overlap_contains {r1 r2 : Rectangle} {x y : Int} :
    (overlap r1 r2).Contains x y ↔ r1.Contains x y ∧ r2.Contains x y := by
  simp only [overlap, Rectangle.Contains]
  omega

/-- Sizes that an `int` has room for are not clamped. -/
theorem getIntersection_eq {r1 r2 : Rectangle} (h1 : EdgesFit r1) (h2 : EdgesFit r2)
    (hwidth : -2147483648 ≤ (overlap r1 r2).width)
    (hheight : -2147483648 ≤ (overlap r1 r2).height) :
    getIntersection r1 r2 = .ok (overlap r1 r2) := by
  rw [getIntersection, int32_of_fits h1.right, int32_of_fits h1.lower, int32_of_fits h2.right,
    int32_of_fits h2.lower]
  simp only [Outcome.ok_bind, Outcome.pure_eq, Outcome.ok.injEq, overlap, clampSize,
    Rectangle.mk.injEq] at hwidth hheight ⊢
  refine ⟨?_, ?_, ?_, ?_⟩ <;> grind

/-- Rectangles with a common point have their set intersection. -/
theorem exists_getIntersection {r1 r2 : Rectangle} (h1 : EdgesFit r1) (h2 : EdgesFit r2)
    {x y : Int} (hx : r1.Contains x y) (hx' : r2.Contains x y) :
    ∃ t, getIntersection r1 r2 = .ok t ∧
      ∀ x y, t.Contains x y ↔ r1.Contains x y ∧ r2.Contains x y := by
  have hcommon := overlap_contains.mpr ⟨hx, hx'⟩
  simp only [Rectangle.Contains] at hcommon
  exact ⟨overlap r1 r2, getIntersection_eq h1 h2 (by omega) (by omega),
    fun x y => overlap_contains⟩

/-! ## Rectangles of one size -/

/-- `x_rectangles` and `y_rectangles`. -/
def rectangleCount (rasterSize rectangleSize : Int) : Outcome Int :=
  int16 ⌈Binary32.round (Binary32.ofInt rasterSize / Binary32.ofInt rectangleSize)⌉

/-- `x_min` and `y_min`. -/
def rectangleMin (rasterSize rectangleSize index : Int) : Outcome Int :=
  if rectangleSize ≥ rasterSize then .ok 0
  else if index = 0 then .ok 0
  else int32 (rectangleSize * index)

/-- `x_max` and `y_max`. -/
def rectangleMax (rasterSize rectangleSize rectangles index min : Int) : Outcome Int :=
  if rectangleSize ≥ rasterSize then int32 (rasterSize - 1)
  else if index = rectangles - 1 then int32 (rasterSize - 1)
  else do
    let next ← int32 (min + rectangleSize)
    int32 (next - 1)

def rectangleSpan (min max : Int) : Outcome Int := do
  let difference ← int32 (max - min)
  int32 (difference + 1)

/-- The loops, for the given numbers of rectangles. -/
def rectangleLoops (rasterSizeX rasterSizeY rectangleSizeX rectangleSizeY xRectangles
    yRectangles : Int) : Outcome (List Rectangle) :=
  (intRange 0 yRectangles).foldlM (fun rectangles rectangleY => do
    let yMin ← rectangleMin rasterSizeY rectangleSizeY rectangleY
    let yMax ← rectangleMax rasterSizeY rectangleSizeY yRectangles rectangleY yMin
    (intRange 0 xRectangles).foldlM (fun rectangles rectangleX => do
      let xMin ← rectangleMin rasterSizeX rectangleSizeX rectangleX
      let xMax ← rectangleMax rasterSizeX rectangleSizeX xRectangles rectangleX xMin
      let width ← rectangleSpan xMin xMax
      let height ← rectangleSpan yMin yMax
      return rectangles ++ [⟨xMin, yMin, width, height⟩]) rectangles) []

/-- `GenerateRectanglesForRaster`. -/
def generateRectanglesForRaster (rasterSizeX rasterSizeY rectangleSizeX rectangleSizeY : Int) :
    Outcome (List Rectangle) := do
  let xRectangles ← rectangleCount rasterSizeX rectangleSizeX
  let yRectangles ← rectangleCount rasterSizeY rectangleSizeY
  rectangleLoops rasterSizeX rasterSizeY rectangleSizeX rectangleSizeY xRectangles yRectangles

end Alus.Shapeutils
