import Alus.Lib.Kernel
import Alus.Lib.Rounding
import Alus.Lib.Sampling
import Alus.Lib.Search
import Alus.Lib.Triangle

/-!
# Triangular interpolation

`LaunchInterpolation` (`triangular_interpolation.cu`) fills the grid points of a window from the
triangles of a Delaunay triangulation. `FindValidTriangles` runs a thread for each triangle, which
derives the grid indices the triangle may cover and the plane through its vertices for each array
of values. `Interpolate` runs a block for each triangle that was accepted, whose threads stride
over these indices and write the value of the plane where `test` finds the point in the triangle.

The threads that accept a triangle take the places in the list of accepted triangles in any order,
and the writes of the second kernel may happen in any order. Coordinates and values are exact
numbers.
-/

namespace Alus.SnapEngine.Triangularinterpolation

open Alus.Lib

/-! ## Data -/

/-- `Window`, less the fields the kernels do not read. The strides of the loops stay in `int`. -/
structure Window where
  linelo : Int
  pixlo : Int
  lines : Int
  pixels : Int
  lines_fit : lines + 7 ≤ 2147483647
  pixels_fit : pixels + 7 ≤ 2147483647

/-- One vertex of a triangle: `ax`, `ay` and `a_index`, or those of `b` or `c`. -/
structure DelaunayVertex (T : Type) where
  x : T
  y : T
  index : Int

/-- `delaunay::DelaunayTriangle2D`. -/
abbrev DelaunayTriangle2D (T : Type) := Triple (DelaunayVertex T)

/-- `TriangleInterpolationParams`, less the counts. -/
structure TriangleInterpolationParams (T : Type) where
  xyRatio : T
  xScale : T
  yScale : T
  offset : T
  invalidIndex : T
  window : Window

/-- `Zdata`, less the widths. An element of `output_arr` is `none` until it is written. -/
@[ext] structure Zdata (T : Type) where
  inputArr : Int → T
  inputHeight : Int
  outputArr : Int → Option T
  outputHeight : Int
  minInt : Int
  maxInt : Int

/-- `Zdataabc`: the plane `z = ax + by + c`. -/
structure Zdataabc (T : Type) where
  a : T
  b : T
  c : T

structure PointInTriangle (T : Type) where
  xtd : Triple T
  ytd : Triple T

/-- `TriangleDto`, less the two variables of the loops. -/
structure TriangleDto (T : Type) where
  pointInTriangle : PointInTriangle T
  iMin : Int
  iMax : Int
  jMin : Int
  jMax : Int
  vx : Triple T
  vy : Triple T

/-- What `FindValidTriangles` leaves at one place of `dtos` and of `abc`. -/
structure AcceptedTriangle (n : Nat) (T : Type) where
  dto : TriangleDto T
  abc : Fin n → Zdataabc T

def intMax : Int := 2147483647

def intLowest : Int := -2147483648

def longMax : Int := 9223372036854775807

def longLowest : Int := -9223372036854775808

/-! ## The kernels -/

section Kernels

variable {T : Type} [Field T] [LinearOrder T]

/-- The edges that `test` compares a point with. -/
def pointInTriangle (vx vy : Triple T) : PointInTriangle T where
  xtd := ⟨vx.c - vx.a, vx.a - vx.b, vx.b - vx.c⟩
  ytd := ⟨vy.c - vy.a, vy.a - vy.b, vy.b - vy.c⟩

def test (x y : T) (xt yt : Triple T) (pit : PointInTriangle T) : Bool :=
  let iRet0 := decide (pit.xtd.a * (y - yt.a) > (x - xt.a) * pit.ytd.a)
  let iRet1 := decide (pit.xtd.b * (y - yt.b) > (x - xt.b) * pit.ytd.b)
  let iRet2 := decide (pit.xtd.c * (y - yt.c) > (x - xt.c) * pit.ytd.c)
  (iRet0 && iRet1 && iRet2) || (!iRet0 && !iRet1 && !iRet2)

variable [FloorRing T]

/-- The value that a vertex index finds in the input array. -/
def Zdata.valueAt (data : Zdata T) (vz : T) : T :=
  let i := toInt (vz / (data.inputHeight : T))
  let j := toInt (vz - (i : T) * (data.inputHeight : T))
  data.inputArr (i * data.inputHeight + j)

def getABC (vx vy vz : Triple T) (data : Zdata T) (f xkj ykj xlj ylj : T) : Zdataabc T :=
  let zj := data.valueAt vz.a
  let zk := data.valueAt vz.b
  let zl := data.valueAt vz.c
  let zkj := zk - zj
  let zlj := zl - zj
  let a := -f * (ykj * zlj - zkj * ylj)
  let b := -f * (zkj * xlj - xkj * zlj)
  ⟨a, b, -a * vx.b - b * vy.b + zk⟩

/-- The plane defined by the three vertices of a triangle. -/
def planeOf (vx vy vz : Triple T) (data : Zdata T) : Zdataabc T :=
  let xkj := vx.b - vx.a
  let ykj := vy.b - vy.a
  let xlj := vx.c - vx.a
  let ylj := vy.c - vy.a
  let f := 1 / (xkj * ylj - ykj * xlj)
  getABC vx vy vz data f xkj ykj xlj ylj

/-- The conversion to `long` saturates on the device. -/
def coordToIndex (coord coord0 deltaCoord offset : T) : Int :=
  clampTo longLowest longMax ⌊(coord - coord0) / deltaCoord - offset + 1 / 2⌋

/-- The indices along one axis that a triangle may cover: from its least to its greatest
coordinate. -/
def coveredIndices (v : Triple T) (coord0 deltaCoord offset : T) : Int × Int :=
  (coordToIndex (min (min v.a v.b) v.c) coord0 deltaCoord offset,
    coordToIndex (max (max v.a v.b) v.c) coord0 deltaCoord offset)

/-- The boundary of the region cuts off what lies before the first index and behind the last. -/
def clipToRegion (range : Int × Int) (n : Int) : Int × Int :=
  (if range.1 ≥ 0 then range.1 else 0, if range.2 ≥ n then n - 1 else range.2)

variable {n : Nat} (params : TriangleInterpolationParams T) (zdata : Fin n → Zdata T)

/-- `i_min` and `i_max`, before they are clipped. -/
def iRange (triangle : DelaunayTriangle2D T) : Int × Int :=
  let xMin : T := params.window.linelo
  coveredIndices (triangle.map fun v => v.x) xMin params.xScale params.offset

/-- `j_min` and `j_max`, before they are clipped. -/
def jRange (triangle : DelaunayTriangle2D T) : Int × Int :=
  let yMin : T := params.window.pixlo
  coveredIndices (triangle.map fun v => v.y / params.xyRatio) yMin params.yScale params.offset

/-- What `FindValidTriangles` stores for a triangle that it accepts. -/
def acceptTriangle (triangle : DelaunayTriangle2D T) : AcceptedTriangle n T :=
  let vx := triangle.map fun v => v.x
  let vy := triangle.map fun v => v.y / params.xyRatio
  let vz := triangle.map fun v => (v.index : T)
  let i := iRange params triangle
  let j := jRange params triangle
  { dto := {
      pointInTriangle := pointInTriangle vx vy
      iMin := (clipToRegion i params.window.lines).1
      iMax := (clipToRegion i params.window.lines).2
      jMin := (clipToRegion j params.window.pixels).1
      jMax := (clipToRegion j params.window.pixels).2
      vx := vx
      vy := vy }
    abc := fun d => planeOf vx vy vz (zdata d) }

/-- One thread of `FindValidTriangles`. -/
def findValidTriangle (triangle : DelaunayTriangle2D T) : Option (AcceptedTriangle n T) :=
  let nx := params.window.lines
  let ny := params.window.pixels
  let vx := triangle.map fun v => v.x
  let vy := triangle.map fun v => v.y / params.xyRatio
  -- skip invalid indices
  if vx.a = params.invalidIndex ∨ vx.b = params.invalidIndex ∨ vx.c = params.invalidIndex ∨
      vy.a = params.invalidIndex ∨ vy.b = params.invalidIndex ∨ vy.c = params.invalidIndex then
    none
  else
    let i := iRange params triangle
    let j := jRange params triangle
    -- skip triangle that is above, below, left or right of the region
    if i.2 < 0 ∨ i.1 ≥ nx ∨ j.2 < 0 ∨ j.1 ≥ ny then
      none
    else
      some (acceptTriangle params zdata triangle)

/-- `zdata[datum].output_arr[cell] = value`, and the update of the bounds that follows it. -/
structure Write (n : Nat) (T : Type) where
  datum : Fin n
  cell : Int
  value : T

/-- The values of `for (int i = (int)min + threadIdx; i <= max; i += blockDim)`. -/
def threadIndices (thread : Nat) (min max : Int) : List Nat :=
  stridedRange (min.toNat + thread) (max + 1).toNat 8

/-- The coordinates of a grid point. -/
def gridPoint (i j : Nat) : T × T :=
  ((params.window.linelo : T) + (i : T) * params.xScale + params.offset,
    (params.window.pixlo : T) + (j : T) * params.yScale + params.offset)

/-- The write of the plane's value at a grid point. -/
def writeAt (triangle : AcceptedTriangle n T) (d : Fin n) (i j : Nat) : Write n T where
  datum := d
  cell := i * (zdata d).outputHeight + j
  value := (triangle.abc d).a * (gridPoint params i j).1 +
    (triangle.abc d).b * (gridPoint params i j).2 + (triangle.abc d).c

/-- What one thread of `Interpolate` writes, in its order. -/
def threadWrites (triangle : AcceptedTriangle n T) (threadX threadY : Nat) : List (Write n T) :=
  (threadIndices threadX triangle.dto.iMin triangle.dto.iMax).flatMap fun i =>
    (threadIndices threadY triangle.dto.jMin triangle.dto.jMax).flatMap fun j =>
      let p := gridPoint params i j
      if !test p.1 p.2 triangle.dto.vx triangle.dto.vy triangle.dto.pointInTriangle then
        []
      else
        (List.finRange n).map fun d => writeAt params zdata triangle d i j

/-- `(int)sqrt(accepted_triangles)`, and one more. -/
def gridDim (acceptedTriangles : Nat) : Nat := acceptedTriangles.sqrt + 1

/-- What the launch of `Interpolate` writes. -/
def interpolateWrites (accepted : List (AcceptedTriangle n T)) : List (Write n T) :=
  let grid : Dim3 := ⟨gridDim accepted.length, gridDim accepted.length⟩
  if grid.Valid then
    (threadSteps grid ⟨8, 8⟩ 1).flatMap fun t =>
      match accepted[t.blockX + t.blockY * grid.x]? with
      | none => []
      | some triangle => threadWrites params zdata triangle t.threadX t.threadY
  else []

/-- The conversion to `int` saturates on the device. -/
def intOfFloor (result : T) : Int := clampTo intLowest intMax ⌊result⌋

/-- One write, with the atomic updates of the bounds. -/
def write (zdata : Fin n → Zdata T) (w : Write n T) : Fin n → Zdata T :=
  Function.update zdata w.datum
    { zdata w.datum with
      outputArr := Function.update (zdata w.datum).outputArr w.cell (some w.value)
      minInt := min (zdata w.datum).minInt (intOfFloor w.value)
      maxInt := max (zdata w.datum).maxInt (intOfFloor w.value) }

/-- `LaunchInterpolation` may end with `result`: the accepted triangles and the writes come in some
order. -/
def LaunchInterpolation (triangles : List (DelaunayTriangle2D T)) (result : Fin n → Zdata T) :
    Prop :=
  ∃ accepted : List (AcceptedTriangle n T),
    accepted.Perm (triangles.filterMap (findValidTriangle params zdata)) ∧
      ∃ writes : List (Write n T), writes.Perm (interpolateWrites params zdata accepted) ∧
        result = writes.foldl write zdata

end Kernels

/-! ## What a triangle covers -/

section Geometry

variable {T : Type} [Field T]

/-- The vertices as the kernels see them. -/
def corners (params : TriangleInterpolationParams T) (triangle : DelaunayTriangle2D T) :
    Triple (T × T) :=
  triangle.map fun v => (v.x, v.y / params.xyRatio)

/-- The vertices with their values. -/
def surface (params : TriangleInterpolationParams T) (data : Zdata T)
    (triangle : DelaunayTriangle2D T) : Triple ((T × T) × T) :=
  triangle.map fun v => ((v.x, v.y / params.xyRatio), data.inputArr v.index)

variable [LinearOrder T] [FloorRing T] [IsStrictOrderedRing T]

@[simp] theorem valueAt_intCast (data : Zdata T) (k : Int) :
    data.valueAt (k : T) = data.inputArr k := by
  have hcolumn : (k : T) - (toInt ((k : T) / (data.inputHeight : T)) : T) * (data.inputHeight : T) =
      ((k - toInt ((k : T) / (data.inputHeight : T)) * data.inputHeight : Int) : T) := by
    push_cast
    rfl
  rw [Zdata.valueAt, hcolumn, toInt_intCast, add_sub_cancel]

variable {params : TriangleInterpolationParams T} {data : Zdata T}
  {triangle : DelaunayTriangle2D T}

theorem planeOf_eq_planeAt (harea : (corners params triangle).area ≠ 0) (p : T × T) :
    let abc := planeOf (triangle.map fun v => v.x) (triangle.map fun v => v.y / params.xyRatio)
      (triangle.map fun v => (v.index : T)) data
    abc.a * p.1 + abc.b * p.2 + abc.c = (surface params data triangle).planeAt p := by
  refine (Triple.planeAt_eq (s := surface params data triangle) harea ?_ p).symm
  simp only [Triple.area, cross, corners, Triple.map] at harea
  simp only [planeOf, getABC, Triple.map, valueAt_intCast, surface]
  generalize hf : 1 / ((triangle.b.x - triangle.a.x) *
    (triangle.c.y / params.xyRatio - triangle.a.y / params.xyRatio) -
    (triangle.b.y / params.xyRatio - triangle.a.y / params.xyRatio) *
    (triangle.c.x - triangle.a.x)) = f
  rw [mul_comm (triangle.c.x - triangle.a.x)] at harea
  rw [div_eq_iff harea] at hf
  refine ⟨?_, ?_, ?_⟩
  · linear_combination
      (data.inputArr triangle.b.index - data.inputArr triangle.a.index) * hf
  · ring
  · linear_combination
      (data.inputArr triangle.b.index - data.inputArr triangle.c.index) * hf

omit [FloorRing T] in
/-- The test takes the edges in for one orientation of the triangle, and leaves them out for the
other. -/
theorem test_iff {v : Triple (T × T)} (harea : v.area ≠ 0) (p : T × T) :
    test p.1 p.2 (v.map Prod.fst) (v.map Prod.snd)
        (pointInTriangle (v.map Prod.fst) (v.map Prod.snd)) = true ↔
      (v.area < 0 ∧ v.Interior p) ∨ (0 < v.area ∧ v.Closed p) := by
  -- each comparison is about the weight of a vertex
  have hcompare : ∀ q r : T × T,
      (r.1 - q.1) * (p.2 - q.2) > (p.1 - q.1) * (r.2 - q.2) ↔ cross q p r < 0 :=
    fun q r => sub_neg.symm
  have hc : cross v.b p v.a = (v.weights p).c := cross_rotate v.a v.b p
  have ha : cross v.c p v.b = (v.weights p).a := (cross_rotate v.c p v.b).symm
  rw [← Triple.interior_of_weights_neg, ← Triple.closed_of_weights_nonneg harea]
  simp only [test, pointInTriangle, Triple.map, hcompare, hc, ha, Bool.or_eq_true, Bool.and_eq_true,
    Bool.not_eq_true', decide_eq_true_eq, decide_eq_false_iff_not, not_lt, Triple.Forall]
  show ((_ < 0 ∧ _) ∧ _) ∨ _ ↔ _
  tauto

/-! ### The indices -/

theorem coordToIndex_le {coord coord0 delta offset : T} (hdelta : 0 < delta)
    (hoffset : offset * delta = offset) {k : Int} (hlo : longLowest ≤ k)
    (h : coord ≤ coord0 + k * delta + offset) : coordToIndex coord coord0 delta offset ≤ k := by
  have hquot : (coord - coord0) / delta ≤ k + offset := by
    rw [div_le_iff₀ hdelta, add_mul, hoffset]
    linarith
  refine clampTo_le hlo (Int.lt_add_one_iff.mp (Int.floor_lt.mpr ?_))
  push_cast
  linarith

theorem le_coordToIndex {coord coord0 delta offset : T} (hdelta : 0 < delta)
    (hoffset : offset * delta = offset) {k : Int} (hhi : k ≤ longMax)
    (h : coord0 + k * delta + offset ≤ coord) : k ≤ coordToIndex coord coord0 delta offset := by
  have hquot : k + offset ≤ (coord - coord0) / delta := by
    rw [le_div_iff₀ hdelta, add_mul, hoffset]
    linarith
  refine le_clampTo hhi (Int.le_floor.mpr ?_)
  linarith

/-- The rounding widens the range of indices and never loses one. -/
theorem mem_coveredIndices {v : Triple T} {coord0 delta offset : T} (hdelta : 0 < delta)
    (hoffset : offset * delta = offset) {k : Int} (hlo : longLowest ≤ k) (hhi : k ≤ longMax)
    (hmin : min (min v.a v.b) v.c ≤ coord0 + k * delta + offset)
    (hmax : coord0 + k * delta + offset ≤ max (max v.a v.b) v.c) :
    (coveredIndices v coord0 delta offset).1 ≤ k ∧ k ≤ (coveredIndices v coord0 delta offset).2 :=
  ⟨coordToIndex_le hdelta hoffset hlo hmin, le_coordToIndex hdelta hoffset hhi hmax⟩

theorem clipToRegion_bounds (range : Int × Int) (n : Int) :
    0 ≤ (clipToRegion range n).1 ∧ (clipToRegion range n).2 < n := by
  unfold clipToRegion
  split_ifs <;> simp <;> omega

theorem mem_clipToRegion {range : Int × Int} {n k : Int} (hk : 0 ≤ k) (hkn : k < n) :
    ((clipToRegion range n).1 ≤ k ∧ k ≤ (clipToRegion range n).2) ↔
      range.1 ≤ k ∧ k ≤ range.2 := by
  unfold clipToRegion
  split_ifs <;> simp <;> omega

end Geometry

/-! ## What a launch writes -/

theorem exists_threadIndices {min max : Int} (hmin : 0 ≤ min) {k : Nat} :
    (∃ thread < 8, k ∈ threadIndices thread min max) ↔ min ≤ k ∧ k ≤ max := by
  simp only [threadIndices, mem_stridedRange (show 0 < 8 by decide)]
  constructor
  · rintro ⟨thread, -, hlt, m, hk⟩
    omega
  · rintro ⟨hle, hmax⟩
    refine ⟨(k - min.toNat) % 8, Nat.mod_lt _ (by decide), by omega, (k - min.toNat) / 8, ?_⟩
    omega

theorem gridDim_valid {count : Nat} (h : count ≤ 2147483647) :
    (Dim3.mk (gridDim count) (gridDim count)).Valid := by
  have hsqrt : count.sqrt < 65535 := Nat.sqrt_lt.mpr (lt_of_le_of_lt h (by norm_num))
  simp only [Dim3.Valid, gridDim]
  omega

theorem lt_gridDim_mul (count : Nat) : count < gridDim count * gridDim count :=
  Nat.lt_succ_sqrt count

section Writes

variable {T : Type} [Field T] [LinearOrder T] [FloorRing T] {n : Nat}
  {params : TriangleInterpolationParams T} {zdata : Fin n → Zdata T}

/-- A thread finds the grid point `i`, `j` in the triangle. -/
def Finds (params : TriangleInterpolationParams T) (triangle : AcceptedTriangle n T) (i j : Nat) :
    Prop :=
  test (gridPoint params i j).1 (gridPoint params i j).2 triangle.dto.vx triangle.dto.vy
    triangle.dto.pointInTriangle = true

omit [FloorRing T] in
theorem mem_threadWrites {triangle : AcceptedTriangle n T} {threadX threadY : Nat}
    {w : Write n T} : w ∈ threadWrites params zdata triangle threadX threadY ↔
      ∃ i ∈ threadIndices threadX triangle.dto.iMin triangle.dto.iMax,
        ∃ j ∈ threadIndices threadY triangle.dto.jMin triangle.dto.jMax,
          Finds params triangle i j ∧ ∃ d, w = writeAt params zdata triangle d i j := by
  simp only [threadWrites, List.mem_flatMap, Finds]
  refine exists_congr fun i => and_congr_right fun _ => exists_congr fun j =>
    and_congr_right fun _ => ?_
  cases htest : test (gridPoint params i j).1 (gridPoint params i j).2 triangle.dto.vx
      triangle.dto.vy triangle.dto.pointInTriangle with
  | false => simp
  | true => simp [eq_comm]

omit [FloorRing T] in
/-- Every accepted triangle has a block, whose threads share the grid points out among them. -/
theorem mem_interpolateWrites {accepted : List (AcceptedTriangle n T)}
    (hcount : accepted.length ≤ 2147483647)
    (hmin : ∀ triangle ∈ accepted, 0 ≤ triangle.dto.iMin ∧ 0 ≤ triangle.dto.jMin)
    {w : Write n T} : w ∈ interpolateWrites params zdata accepted ↔
      ∃ triangle ∈ accepted, ∃ i j : Nat,
        (triangle.dto.iMin ≤ i ∧ i ≤ triangle.dto.iMax) ∧
          (triangle.dto.jMin ≤ j ∧ j ≤ triangle.dto.jMax) ∧ Finds params triangle i j ∧
            ∃ d, w = writeAt params zdata triangle d i j := by
  simp only [interpolateWrites, if_pos (gridDim_valid hcount), List.mem_flatMap, mem_threadSteps]
  constructor
  · rintro ⟨t, ⟨-, -, hx, hy⟩, hw⟩
    cases hget : accepted[t.blockX + t.blockY * gridDim accepted.length]? with
    | none =>
      rw [hget] at hw
      cases hw
    | some triangle =>
      rw [hget] at hw
      obtain ⟨i, hi, j, hj, hfinds, hd⟩ := mem_threadWrites.mp hw
      have hmem : triangle ∈ accepted := List.mem_of_getElem? hget
      exact ⟨triangle, hmem, i, j,
        (exists_threadIndices (hmin triangle hmem).1).mp ⟨t.threadX, hx, hi⟩,
        (exists_threadIndices (hmin triangle hmem).2).mp ⟨t.threadY, hy, hj⟩, hfinds, hd⟩
  · rintro ⟨triangle, hmem, i, j, hi, hj, hfinds, hd⟩
    obtain ⟨k, hk, hget⟩ := List.getElem_of_mem hmem
    obtain ⟨threadX, hx, hi⟩ := (exists_threadIndices (hmin triangle hmem).1).mpr hi
    obtain ⟨threadY, hy, hj⟩ := (exists_threadIndices (hmin triangle hmem).2).mpr hj
    -- the block of the triangle lies in the grid
    have hrow : k / gridDim accepted.length < gridDim accepted.length :=
      Nat.div_lt_of_lt_mul (hk.trans (lt_gridDim_mul accepted.length))
    refine ⟨⟨0, k % gridDim accepted.length, k / gridDim accepted.length, threadX, threadY⟩,
      ⟨Nat.one_pos, ⟨Nat.mod_lt _ (Nat.succ_pos _), hrow⟩, hx, hy⟩, ?_⟩
    simp only [Nat.mod_add_div', List.getElem?_eq_getElem hk, hget]
    exact mem_threadWrites.mpr ⟨i, hi, j, hj, hfinds, hd⟩

/-! ## The arrays after the writes -/

variable {writes : List (Write n T)} {d : Fin n}

/-- A write to another array changes nothing of this one. -/
theorem write_of_ne {w : Write n T} (h : d ≠ w.datum) : write zdata w d = zdata d :=
  Function.update_of_ne h _ zdata

theorem write_self (zdata : Fin n → Zdata T) (w : Write n T) : write zdata w w.datum =
    { zdata w.datum with
      outputArr := Function.update (zdata w.datum).outputArr w.cell (some w.value)
      minInt := min (zdata w.datum).minInt (intOfFloor w.value)
      maxInt := max (zdata w.datum).maxInt (intOfFloor w.value) } :=
  Function.update_self w.datum _ zdata

/-- A write leaves everything but the array and its bounds. -/
theorem foldl_write_frame (writes : List (Write n T)) (zdata : Fin n → Zdata T) (d : Fin n) :
    ((writes.foldl write zdata) d).inputArr = (zdata d).inputArr ∧
      ((writes.foldl write zdata) d).inputHeight = (zdata d).inputHeight ∧
      ((writes.foldl write zdata) d).outputHeight = (zdata d).outputHeight := by
  induction writes generalizing zdata with
  | nil => exact ⟨rfl, rfl, rfl⟩
  | cons w writes ih =>
    rw [List.foldl_cons, (ih _).1, (ih _).2.1, (ih _).2.2]
    by_cases hd : d = w.datum
    · subst hd
      rw [write_self]
      exact ⟨rfl, rfl, rfl⟩
    · rw [write_of_ne hd]
      exact ⟨rfl, rfl, rfl⟩

theorem le_foldl_write_minInt {c : Int} : c ≤ (writes.foldl write zdata d).minInt ↔
    c ≤ (zdata d).minInt ∧ ∀ w ∈ writes, w.datum = d → c ≤ intOfFloor w.value := by
  induction writes generalizing zdata with
  | nil => simp
  | cons w writes ih =>
    rw [List.foldl_cons, ih, List.forall_mem_cons]
    by_cases hd : d = w.datum
    · subst hd
      rw [write_self]
      simp only [le_min_iff, true_implies, and_assoc]
    · rw [write_of_ne hd]
      simp [Ne.symm hd]

theorem foldl_write_maxInt_le {c : Int} : (writes.foldl write zdata d).maxInt ≤ c ↔
    (zdata d).maxInt ≤ c ∧ ∀ w ∈ writes, w.datum = d → intOfFloor w.value ≤ c := by
  induction writes generalizing zdata with
  | nil => simp
  | cons w writes ih =>
    rw [List.foldl_cons, ih, List.forall_mem_cons]
    by_cases hd : d = w.datum
    · subst hd
      rw [write_self]
      simp only [max_le_iff, true_implies, and_assoc]
    · rw [write_of_ne hd]
      simp [Ne.symm hd]

theorem write_outputArr (zdata : Fin n → Zdata T) (w : Write n T) (d : Fin n) (k : Int) :
    (write zdata w d).outputArr k =
      if d = w.datum ∧ k = w.cell then some w.value else (zdata d).outputArr k := by
  by_cases hd : d = w.datum
  · subst hd
    simp only [write_self, Function.update_apply, true_and]
  · rw [write_of_ne hd, if_neg fun h => hd h.1]

/-- What an element holds after the writes was there before them or is one of them. -/
theorem of_foldl_write_outputArr {k : Int} {v : T}
    (h : (writes.foldl write zdata d).outputArr k = some v) :
    (zdata d).outputArr k = some v ∨ ⟨d, k, v⟩ ∈ writes := by
  induction writes generalizing zdata with
  | nil => exact .inl h
  | cons w writes ih =>
    rcases ih h with hbefore | hmem
    · rw [write_outputArr] at hbefore
      split at hbefore
      · next hw =>
        obtain ⟨rfl, rfl⟩ := hw
        rw [Option.some.injEq] at hbefore
        subst hbefore
        exact .inr List.mem_cons_self
      · exact .inl hbefore
    · exact .inr (List.mem_cons_of_mem w hmem)

/-- An element that is written holds something. -/
theorem isSome_foldl_write_outputArr {k : Int}
    (h : ((zdata d).outputArr k).isSome ∨ ∃ v, ⟨d, k, v⟩ ∈ writes) :
    ((writes.foldl write zdata d).outputArr k).isSome := by
  induction writes generalizing zdata with
  | nil =>
    rcases h with h | ⟨v, hv⟩
    · exact h
    · cases hv
  | cons w writes ih =>
    refine ih ?_
    rw [write_outputArr]
    by_cases hw : d = w.datum ∧ k = w.cell
    · rw [if_pos hw]
      exact .inl rfl
    · rw [if_neg hw]
      refine h.imp_right fun ⟨v, hv⟩ => ⟨v, ?_⟩
      refine (List.mem_cons.mp hv).resolve_left fun heq => hw ?_
      subst heq
      exact ⟨rfl, rfl⟩

end Writes

end Alus.SnapEngine.Triangularinterpolation
