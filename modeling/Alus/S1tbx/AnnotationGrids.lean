import Alus.Lib.Interpolation
import Alus.SnapEngine.TiePointGrid

/-!
# Tie point grids of a level-1 product

`AddTiePointGrids` (`sentinel1_level1_directory.cc`) reads the geolocation grid of an annotation,
resamples each of its quantities to evenly spaced nodes (`GetListInEvenlySpacedGrid`), and adds a
tie point grid of them to the product. `TiePointGrid` places the nodes by their sub-sampling. The
last node is placed one pixel behind the raster's last pixel, but sampled at it.

The arithmetic is exact. A quotient by zero has no exact value, and counts as undefined.
-/

namespace Alus.S1tbx.AnnotationGrids

open Alus.Lib
open Alus.SnapEngine (TiePointGrid interpolate2D)

section Computation

variable {T : Type} [Field T] [LinearOrder T]

/-- A quotient that has an exact value. -/
def quotient (a b : T) : Outcome T := if b = 0 then .undefined else .ok (a / b)

/-! ## Evenly spaced nodes -/

/-- The variables of a search for the interval of the source grid around a position. -/
structure SourceInterval (T : Type) where
  i0 : Int
  i1 : Int
  old0 : T
  old1 : T
  found : Bool

/-- A pass of the loop over the intervals, which ends with the first whose end is after the
position. -/
def searchPass (position : Int → Outcome Int) (new : T) (s : SourceInterval T) (i : Int) :
    Outcome (SourceInterval T) :=
  if s.found then .ok s
  else do
    let old0 ← position (i - 1)
    let old1 ← position i
    return ⟨i - 1, i, old0, old1, decide ((old1 : T) > new)⟩

/-- The loop over the intervals. -/
def searchInterval (position : Int → Outcome Int) (size : Int) (new : T) :
    Outcome (SourceInterval T) :=
  (intRange 1 size).foldlM (searchPass position new) ⟨0, 0, 0, 0, false⟩

/-- `new_x` and `new_y`: where a target node is sampled. -/
def newPosition (sceneRasterSize : Int) (subSampling : T) (node : Int) : T :=
  let new := node * subSampling
  -- the last nodes are moved to the last pixel
  if new > sceneRasterSize - 1 then sceneRasterSize - 1 else new

/-- A target node's position in the source grid along one axis: the interval and the weight of its
end. -/
def locate (position : Int → Outcome Int) (size sceneRasterSize : Int) (subSampling : T)
    (node : Int) : Outcome (SourceInterval T × T) := do
  let new := newPosition sceneRasterSize subSampling node
  -- without an interval these are the last two points
  let s ← searchInterval position size new
  let w ← quotient (new - s.old0) (s.old1 - s.old0)
  return (s, w)

/-- What is read of a source grid's points: the positions and a quantity, row by row. -/
structure SourceGrid (T : Type) where
  width : Int
  height : Int
  x : List Int
  y : List Int
  pointList : List T

/-- The target grid: its size and the spacing of its nodes in the raster. -/
structure TargetGrid (T : Type) where
  sceneRasterWidth : Int
  sceneRasterHeight : Int
  width : Int
  height : Int
  subSamplingX : T
  subSamplingY : T

/-- `GetListInEvenlySpacedGrid`. The target list has the size of the target grid. -/
def getListInEvenlySpacedGrid (source : SourceGrid T) (target : TargetGrid T) :
    Outcome (List T) := do
  Outcome.require ((source.pointList.length : Int) = source.width * source.height)
  let rows ← Outcome.collect ((intRange 0 target.height).map fun r => do
    let (j, wj) ← locate (fun j => vectorAt source.y (j * source.width)) source.height
      target.sceneRasterHeight target.subSamplingY r
    Outcome.collect ((intRange 0 target.width).map fun c => do
      let (i, wi) ← locate (vectorAt source.x) source.width target.sceneRasterWidth
        target.subSamplingX c
      let x00 ← vectorAt source.pointList (i.i0 + j.i0 * source.width)
      let x10 ← vectorAt source.pointList (i.i1 + j.i0 * source.width)
      let x01 ← vectorAt source.pointList (i.i0 + j.i1 * source.width)
      let x11 ← vectorAt source.pointList (i.i1 + j.i1 * source.width)
      return interpolate2D wi wj x00 x10 x01 x11))
  return rows.flatten

/-! ## The annotation -/

/-- The attributes that are read of a geolocation grid point. -/
structure GeoGridPoint (T : Type) where
  latitude : T
  longitude : T
  incidenceAngle : T
  elevationAngle : T
  slantRangeTime : T
  pixel : T
  line : T

/-- What the loop over the points counts. -/
structure GridScan where
  gridWidth : Int
  gridHeight : Int
  i : Int
  deriving DecidableEq, Repr

/-- A pass of the loop over the points. -/
def scanPoint (s : GridScan) (x : Int) : GridScan :=
  -- the start of a new line; the second one tells the width
  if x = 0 then ⟨if s.gridWidth = 0 then s.i else s.gridWidth, s.gridHeight + 1, s.i + 1⟩
  else { s with i := s.i + 1 }

/-- The longitudes, those in the west moved where neighbours are on both sides of the
antimeridian. -/
def correctAntimeridian (lngList : List T) : List T :=
  if (lngList.zip lngList.tail).any fun (previous, lng) => decide (|lng - previous| > 350) then
    lngList.map fun lng => if lng < 0 then lng + 360 else lng
  else lngList

/-- `ONE_BILLION`. -/
def oneBillion : T := 1000000000

/-- The product's tie point grids of one prefix. -/
structure ProductGrids (T : Type) [Field T] [LinearOrder T] where
  latitude : Option (TiePointGrid T)
  longitude : Option (TiePointGrid T)
  incidentAngle : Option (TiePointGrid T)
  elevationAngle : Option (TiePointGrid T)
  slantRangeTime : Option (TiePointGrid T)

/-- The check of the constructor of `TiePointGeoCoding`. -/
def checkGeoCoding (lat lon : TiePointGrid T) : Outcome PUnit :=
  Outcome.require ((lat.x.size = lon.x.size ∧ lat.y.size = lon.y.size) ∧
    (lat.x.offset = lon.x.offset ∧ lat.y.offset = lon.y.offset) ∧
    lat.x.subSampling = lon.x.subSampling ∧ lat.y.subSampling = lon.y.subSampling)

/-- A grid of the product, which is added to it if it has none. -/
def ensureGrid (existing : Option (TiePointGrid T)) (name : String) (target : TargetGrid T)
    (list : List T) : Outcome (TiePointGrid T) :=
  match existing with
  | some grid => .ok grid
  | none => TiePointGrid.create name target.width target.height (1 / 2) (1 / 2)
      target.subSamplingX target.subSamplingY list

variable [FloorRing T]

/-- `AddTiePointGrids` for the points of an annotation. The raster is the band's, or the product's
where there is no band. -/
def addTiePointGrids (existing : ProductGrids T) (productRaster : Int × Int)
    (bandRaster : Option (Int × Int)) (tpgPrefix : String) (geoGrid : List (GeoGridPoint T)) :
    Outcome (ProductGrids T) :=
  let pre := if tpgPrefix.isEmpty then "" else tpgPrefix ++ "_"
  match existing.latitude, existing.longitude with
  | some lat, some lon => do
    if bandRaster.isSome then checkGeoCoding lat lon
    return existing
  | _, _ => do
    let x := geoGrid.map fun p => toInt p.pixel
    let y := geoGrid.map fun p => toInt p.line
    let s := x.foldl scanPoint ⟨0, 0, 0⟩
    let (sceneRasterWidth, sceneRasterHeight) := bandRaster.getD productRaster
    if sceneRasterWidth ≤ 0 ∨ sceneRasterHeight ≤ 0 ∨ s.gridWidth ≤ 1 ∨ s.gridHeight ≤ 1 then
      return existing
    else do
      let target : TargetGrid T :=
        { sceneRasterWidth := sceneRasterWidth
          sceneRasterHeight := sceneRasterHeight
          width := s.gridWidth
          height := s.gridHeight
          subSamplingX := sceneRasterWidth / ((s.gridWidth - 1 : Int) : T)
          subSamplingY := sceneRasterHeight / ((s.gridHeight - 1 : Int) : T) }
      let resample := fun (pointList : List T) =>
        getListInEvenlySpacedGrid ⟨s.gridWidth, s.gridHeight, x, y, pointList⟩ target
      let newLatList ← resample (geoGrid.map (·.latitude))
      let newLonList ← resample (correctAntimeridian (geoGrid.map (·.longitude)))
      let newIncList ← resample (geoGrid.map (·.incidenceAngle))
      let newElevList ← resample (geoGrid.map (·.elevationAngle))
      let newSlrtList ← resample (geoGrid.map fun p => p.slantRangeTime * oneBillion)
      let lat ← ensureGrid existing.latitude (pre ++ "latitude") target newLatList
      let lon ← ensureGrid existing.longitude (pre ++ "longitude") target newLonList
      let inc ← ensureGrid existing.incidentAngle (pre ++ "incident_angle") target newIncList
      let elev ← ensureGrid existing.elevationAngle (pre ++ "elevation_angle") target newElevList
      let slrt ← ensureGrid existing.slantRangeTime (pre ++ "slant_range_time") target newSlrtList
      checkGeoCoding lat lon
      return ⟨some lat, some lon, some inc, some elev, some slrt⟩

end Computation

/-! ## The search -/

section Search

variable {T : Type} [Field T] [LinearOrder T]

/-- The interval from knot `k` on, as the search leaves it. -/
def intervalFrom (knots : List T) (k : Nat) (found : Bool) : SourceInterval T :=
  ⟨k, k + 1, knots.getD k 0, knots.getD (k + 1) 0, found⟩

/-- What holds of the search before the interval that ends at knot `i`. -/
inductive Searched (knots : List T) (new : T) : Int → SourceInterval T → Prop where
  | searching (k : Nat) (s : SourceInterval T) (hfound : s.found = false)
      (hle : k = 0 ∨ knots.getD k 0 ≤ new) (hs : k = 0 ∨ s = intervalFrom knots (k - 1) false) :
      Searched knots new ((k + 1 : Nat) : Int) s
  | found (i : Int) : Searched knots new i (intervalFrom knots (knotsUpTo knots new) true)

variable {knots : List T} {position : Int → Outcome Int}

/-- The positions that are read are the knots. -/
def ReadsKnots (position : Int → Outcome Int) (knots : List T) : Prop :=
  ∀ i : Nat, i < knots.length → ∃ z : Int, position i = .ok z ∧ (z : T) = knots.getD i 0

/-- A pass of the search. -/
theorem exists_searchPass (h : knots.Pairwise (· < ·)) (hread : ReadsKnots position knots)
    {new : T} (i : Int) (s : SourceInterval T) (hlt : i < knots.length)
    (hs : Searched knots new i s) :
    ∃ s', searchPass position new s i = .ok s' ∧ Searched knots new (i + 1) s' := by
  cases hs with
  | found => exact ⟨_, if_pos rfl, .found _⟩
  | searching k _ hfound hle hs =>
    obtain ⟨z0, hz0, hknot0⟩ := hread k (by omega)
    obtain ⟨z1, hz1, hknot1⟩ := hread (k + 1) (by omega)
    have hprevious : ((k + 1 : Nat) : Int) - 1 = (k : Nat) := by omega
    refine ⟨intervalFrom knots k (decide ((z1 : T) > new)), ?_, ?_⟩
    · unfold searchPass intervalFrom
      rw [if_neg (by rw [hfound]; exact Bool.false_ne_true), hprevious, hz0, Outcome.ok_bind, hz1,
        Outcome.ok_bind, hknot0, hknot1, Nat.cast_succ]
      rfl
    · by_cases hafter : (z1 : T) > new
      · have hk : knotsUpTo knots new = k := by
          rw [hknot1, List.getD_eq_getElem _ _ (by omega)] at hafter
          rw [List.getD_eq_getElem _ _ (by omega)] at hle
          exact knotsUpTo_eq h (by omega) hle (.inr hafter)
        rw [decide_eq_true hafter, ← hk]
        exact .found _
      · rw [decide_eq_false hafter]
        rw [hknot1] at hafter
        exact .searching (k + 1) _ rfl (.inr (not_lt.mp hafter)) (.inr rfl)

/-- The search ends on the interval of the position, or on an end interval. -/
theorem exists_searchInterval (h : knots.Pairwise (· < ·)) (hlen : 2 ≤ knots.length)
    (hread : ReadsKnots position knots) (new : T) :
    ∃ found, searchInterval position knots.length new =
      .ok (intervalFrom knots (knotsUpTo knots new) found) := by
  obtain ⟨s, hrun, hs⟩ := exists_foldlM_intRange (Searched knots new)
    (show (1 : Int) ≤ knots.length by omega)
    (fun i s _ hlt hs => exists_searchPass h hread i s hlt hs)
    (.searching 0 ⟨0, 0, 0, 0, false⟩ rfl (.inl rfl) (.inl rfl))
  have hrun : searchInterval position knots.length new = .ok s := hrun
  generalize hend : (knots.length : Int) = last at hs hrun ⊢
  cases hs with
  | found => exact ⟨true, hrun⟩
  | searching k _ hfound hle hs =>
    -- the last knot is not after the position either
    have hk : k = knots.length - 2 + 1 := by omega
    have hknots : knotsUpTo knots new = knots.length - 2 := by
      refine knotsUpTo_eq h (by omega) ?_ (.inl (by omega))
      by_cases hzero : knots.length - 2 = 0
      · exact .inl hzero
      · have hle := hle.resolve_left (by omega)
        rw [List.getD_eq_getElem _ _ (by omega)] at hle
        have hlt : knots[knots.length - 2] < knots[k] :=
          List.pairwise_iff_getElem.mp h _ _ _ _ (by omega)
        exact .inr (hlt.le.trans hle)
    have hs := hs.resolve_left (by omega)
    refine ⟨false, ?_⟩
    rw [hknots, show knots.length - 2 = k - 1 by omega, ← hs]
    exact hrun

/-- The weight of the end of an interval at a position. -/
def weightAt (knots : List T) (t : T) : T :=
  (t - knots.getD (knotsUpTo knots t) 0) /
    (knots.getD (knotsUpTo knots t + 1) 0 - knots.getD (knotsUpTo knots t) 0)

/-- A node is located in an interval that is not empty. -/
theorem exists_locate (h : knots.Pairwise (· < ·)) (hlen : 2 ≤ knots.length)
    (hread : ReadsKnots position knots) (sceneRasterSize : Int) (subSampling : T) (node : Int) :
    ∃ found, locate position knots.length sceneRasterSize subSampling node =
      .ok (intervalFrom knots (knotsUpTo knots (newPosition sceneRasterSize subSampling node))
        found, weightAt knots (newPosition sceneRasterSize subSampling node)) := by
  obtain ⟨found, hsearch⟩ :=
    exists_searchInterval h hlen hread (newPosition sceneRasterSize subSampling node)
  refine ⟨found, ?_⟩
  have hlast := knotsUpTo_le knots (newPosition sceneRasterSize subSampling node)
  have hlt : knots.getD (knotsUpTo knots (newPosition sceneRasterSize subSampling node)) 0 <
      knots.getD (knotsUpTo knots (newPosition sceneRasterSize subSampling node) + 1) 0 := by
    rw [List.getD_eq_getElem _ _ (by omega), List.getD_eq_getElem _ _ (by omega)]
    exact List.pairwise_iff_getElem.mp h _ _ _ _ (Nat.lt_succ_self _)
  unfold locate
  dsimp only
  rw [hsearch, Outcome.ok_bind]
  have hne := sub_ne_zero.mpr hlt.ne'
  exact congrArg (· >>= _) (if_neg hne)

end Search

/-! ## The resampled nodes -/

section Resampling

variable {α T : Type} {pixels lines : List Int}

/-- The values of the points of a grid, row by row. -/
def gridList (pixels lines : List Int) (g : Int → Int → α) : List α :=
  lines.flatMap fun line => pixels.map fun pixel => g pixel line

theorem length_gridList (g : Int → Int → α) :
    (gridList pixels lines g).length = pixels.length * lines.length := by
  rw [gridList, List.length_flatMap]
  simp [Nat.mul_comm]

theorem map_gridList {β : Type} (h : α → β) (g : Int → Int → α) :
    (gridList pixels lines g).map h = gridList pixels lines fun pixel line => h (g pixel line) := by
  rw [gridList, List.map_flatMap]
  refine List.flatMap_congr fun line _ => ?_
  rw [List.map_map]
  rfl

theorem vectorAt_gridList (g : Int → Int → α) {i j : Nat} (hi : i < pixels.length)
    (hj : j < lines.length) :
    vectorAt (gridList pixels lines g) ((i : Int) + (j : Int) * pixels.length) =
      .ok (g pixels[i] lines[j]) := by
  have hindex : ((i : Int) + (j : Int) * pixels.length).toNat = j * pixels.length + i := by
    rw [Int.add_comm]
    exact Int.toNat_natCast (j * pixels.length + i)
  refine vectorAt_eq_ok.mpr ⟨by positivity, ?_⟩
  rw [hindex, gridList, getElem?_flatMap_block (fun line _ => List.length_map _) hi,
    List.getElem?_eq_getElem hj, Option.bind_some, List.getElem?_map, List.getElem?_eq_getElem hi]
  rfl

variable [Field T]

/-- Positions as the knots of an interpolation. -/
def knotsOf (positions : List Int) : List T := positions.map Int.cast

theorem getD_knotsOf {positions : List Int} {i : Nat} (hi : i < positions.length) :
    (knotsOf positions : List T).getD i 0 = (positions[i] : T) := by
  rw [List.getD_eq_getElem _ _ (by rwa [knotsOf, List.length_map])]
  exact List.getElem_map _

variable [LinearOrder T]

/-- The bilinear interpolant of the source grid, extended beyond its ends. -/
def bilinearAt (pixels lines : List Int) (field : Int → Int → T) (x y : T) : T :=
  interpolant (knotsOf lines)
    (lines.map fun line => interpolant (knotsOf pixels) (pixels.map (field · line)) x) y

/-- Along one line the interpolant is on the segment of the position. -/
theorem interpolant_knotsOf {positions : List Int} (hlen : 2 ≤ positions.length) (t : T) :
    ∃ (k : Nat) (hk : k + 1 < positions.length), knotsUpTo (knotsOf positions) t = k ∧
      ∀ g : Int → T, interpolant (knotsOf positions) (positions.map g) t = g positions[k] +
        weightAt (knotsOf positions) t * (g positions[k + 1] - g positions[k]) := by
  have hlast := knotsUpTo_le (knotsOf positions) t
  have hlength : (knotsOf positions : List T).length = positions.length := List.length_map _
  rw [hlength] at hlast
  have hk : knotsUpTo (knotsOf positions) t + 1 < positions.length := by omega
  refine ⟨knotsUpTo (knotsOf positions) t, hk, rfl, fun g => ?_⟩
  rw [interpolant, if_neg (by omega), onSegment, lerp,
    List.getD_eq_getElem (positions.map g) _ (by rw [List.length_map]; omega),
    List.getD_eq_getElem (positions.map g) _ (by rw [List.length_map]; omega), List.getElem_map,
    List.getElem_map]
  rfl

/-- The four values around a position give the interpolant. -/
theorem interpolate2D_eq_bilinearAt {field : Int → Int → T} {x y : T} {i j : Nat}
    (hi : i + 1 < pixels.length) (hj : j + 1 < lines.length)
    (hx : ∀ g : Int → T, interpolant (knotsOf pixels) (pixels.map g) x = g pixels[i] +
      weightAt (knotsOf pixels) x * (g pixels[i + 1] - g pixels[i]))
    (hy : ∀ g : Int → T, interpolant (knotsOf lines) (lines.map g) y = g lines[j] +
      weightAt (knotsOf lines) y * (g lines[j + 1] - g lines[j])) :
    interpolate2D (weightAt (knotsOf pixels) x) (weightAt (knotsOf lines) y)
      (field pixels[i] lines[j]) (field pixels[i + 1] lines[j]) (field pixels[i] lines[j + 1])
      (field pixels[i + 1] lines[j + 1]) = bilinearAt pixels lines field x y := by
  rw [bilinearAt, hy fun line => interpolant (knotsOf pixels) (pixels.map (field · line)) x,
    hx (field · lines[j]), hx (field · lines[j + 1])]
  unfold interpolate2D
  ring

variable [IsStrictOrderedRing T]

theorem pairwise_knotsOf {positions : List Int} (h : positions.Pairwise (· < ·)) :
    (knotsOf positions : List T).Pairwise (· < ·) := by
  rw [knotsOf, List.pairwise_map]
  exact h.imp Int.cast_lt.mpr

/-- An affine field is interpolated exactly. -/
theorem bilinearAt_affine (hpixels : pixels.Pairwise (· < ·)) (hlines : lines.Pairwise (· < ·))
    (hwidth : 2 ≤ pixels.length) (hheight : 2 ≤ lines.length) {field : Int → Int → T} {a b c : T}
    (hfield : ∀ pixel ∈ pixels, ∀ line ∈ lines, field pixel line = a + b * pixel + c * line)
    (x y : T) : bilinearAt pixels lines field x y = a + b * x + c * y := by
  have hline : ∀ line ∈ lines, interpolant (knotsOf pixels) (pixels.map (field · line)) x =
      a + b * x + c * line := by
    intro line hline
    have hvalues : pixels.map (field · line) =
        (knotsOf pixels).map fun q => a + c * line + b * q := by
      rw [knotsOf, List.map_map]
      refine List.map_congr_left fun pixel hpixel => ?_
      show field pixel line = a + c * line + b * pixel
      rw [hfield pixel hpixel line hline]
      ring
    rw [hvalues, interpolant_affine (pairwise_knotsOf hpixels)
      (by rw [knotsOf, List.length_map]; exact hwidth)]
    ring
  have hvalues : (lines.map fun line =>
      interpolant (knotsOf pixels) (pixels.map (field · line)) x) =
        (knotsOf lines).map fun q => a + b * x + c * q := by
    rw [show (knotsOf lines : List T) = lines.map Int.cast from rfl, List.map_map]
    exact List.map_congr_left hline
  rw [bilinearAt, hvalues, interpolant_affine (pairwise_knotsOf hlines)
    (by rw [knotsOf, List.length_map]; exact hheight)]

omit [LinearOrder T] [IsStrictOrderedRing T] in
/-- The first line of the list of pixels has them. -/
theorem readsKnots_pixels (hheight : 0 < lines.length) :
    ReadsKnots (vectorAt (gridList pixels lines fun pixel _ => pixel))
      (knotsOf pixels : List T) := by
  intro i hi
  rw [knotsOf, List.length_map] at hi
  have hread := vectorAt_gridList (fun pixel _ => pixel) hi hheight
  rw [Nat.cast_zero, Int.zero_mul, Int.add_zero] at hread
  exact ⟨_, hread, (getD_knotsOf hi).symm⟩

omit [LinearOrder T] [IsStrictOrderedRing T] in
/-- The first column of the list of lines has them. -/
theorem readsKnots_lines (hwidth : 0 < pixels.length) :
    ReadsKnots (fun j => vectorAt (gridList pixels lines fun _ line => line)
      (j * pixels.length)) (knotsOf lines : List T) := by
  intro j hj
  rw [knotsOf, List.length_map] at hj
  have hread := vectorAt_gridList (fun _ line => line) hwidth hj
  rw [Nat.cast_zero, Int.zero_add] at hread
  exact ⟨_, hread, (getD_knotsOf hj).symm⟩

/-- A resampled list holds the interpolant of the source grid at the positions of the nodes. -/
theorem getListInEvenlySpacedGrid_eq (hpixels : pixels.Pairwise (· < ·))
    (hlines : lines.Pairwise (· < ·)) (hwidth : 2 ≤ pixels.length) (hheight : 2 ≤ lines.length)
    (field : Int → Int → T) (target : TargetGrid T) :
    getListInEvenlySpacedGrid ⟨pixels.length, lines.length,
      gridList pixels lines fun pixel _ => pixel, gridList pixels lines fun _ line => line,
      gridList pixels lines field⟩ target =
      .ok (rowMajor target.width target.height fun c r => bilinearAt pixels lines field
        (newPosition target.sceneRasterWidth target.subSamplingX c)
        (newPosition target.sceneRasterHeight target.subSamplingY r)) := by
  have hx : ReadsKnots (vectorAt (gridList pixels lines fun pixel _ => pixel))
      (knotsOf pixels : List T) := readsKnots_pixels (by omega)
  have hy : ReadsKnots (fun j => vectorAt (gridList pixels lines fun _ line => line)
      (j * pixels.length)) (knotsOf lines : List T) := readsKnots_lines (by omega)
  have hxlen : (knotsOf pixels : List T).length = pixels.length := List.length_map _
  have hylen : (knotsOf lines : List T).length = lines.length := List.length_map _
  unfold getListInEvenlySpacedGrid
  dsimp only
  rw [Outcome.require_of (by rw [length_gridList]; push_cast; rfl), Outcome.ok_bind,
    Outcome.collect_map_eq_ok (g := fun r => (intRange 0 target.width).map fun c =>
      bilinearAt pixels lines field
        (newPosition target.sceneRasterWidth target.subSamplingX c)
        (newPosition target.sceneRasterHeight target.subSamplingY r)) ?_]
  · rfl
  -- a line of the target: the interval of lines that its position is in
  intro r _
  obtain ⟨foundY, hlocateY⟩ := exists_locate (pairwise_knotsOf hlines)
    (by rw [hylen]; exact hheight) hy target.sceneRasterHeight target.subSamplingY r
  obtain ⟨j, hj, hknotY, hsegmentY⟩ := interpolant_knotsOf hheight
    (newPosition target.sceneRasterHeight target.subSamplingY r)
  rw [hylen, hknotY] at hlocateY
  rw [hlocateY, Outcome.ok_bind]
  dsimp only [intervalFrom]
  refine Outcome.collect_map_eq_ok fun c _ => ?_
  obtain ⟨foundX, hlocateX⟩ := exists_locate (pairwise_knotsOf hpixels)
    (by rw [hxlen]; exact hwidth) hx target.sceneRasterWidth target.subSamplingX c
  obtain ⟨i, hi, hknotX, hsegmentX⟩ := interpolant_knotsOf hwidth
    (newPosition target.sceneRasterWidth target.subSamplingX c)
  rw [hxlen, hknotX] at hlocateX
  have hread : ∀ a b : Nat, (ha : a < pixels.length) → (hb : b < lines.length) →
      vectorAt (gridList pixels lines field) ((a : Int) + (b : Int) * pixels.length) =
        .ok (field pixels[a] lines[b]) := fun a b ha hb => vectorAt_gridList field ha hb
  have hnextX : (i : Int) + 1 = (i + 1 : Nat) := rfl
  have hnextY : (j : Int) + 1 = (j + 1 : Nat) := rfl
  rw [hlocateX, Outcome.ok_bind]
  dsimp only [intervalFrom]
  rw [hnextX, hnextY, hread i j (by omega) (by omega), Outcome.ok_bind,
    hread (i + 1) j hi (by omega), Outcome.ok_bind, hread i (j + 1) (by omega) hj,
    Outcome.ok_bind, hread (i + 1) (j + 1) hi hj, Outcome.ok_bind, Outcome.pure_eq,
    interpolate2D_eq_bilinearAt hi hj hsegmentX hsegmentY]

end Resampling

/-! ## The size of the source grid -/

section Scan

variable {pixels : List Int}

theorem foldl_scanPoint_rest {l : List Int} (h : ∀ x ∈ l, x ≠ 0) (s : GridScan) :
    l.foldl scanPoint s = { s with i := s.i + l.length } := by
  induction l generalizing s with
  | nil => simp
  | cons x l ih =>
    rw [List.foldl_cons, ih fun x' hx' => h x' (List.mem_cons_of_mem x hx'), scanPoint,
      if_neg (h x List.mem_cons_self), List.length_cons]
    dsimp only
    rw [Nat.cast_succ, Int.add_assoc, Int.add_comm 1]

/-- A line adds one to the height; the second tells the width. -/
theorem foldl_scanPoint_line (hincreasing : pixels.Pairwise (· < ·))
    (hfirst : pixels.head? = some 0) (s : GridScan) :
    pixels.foldl scanPoint s =
      ⟨if s.gridWidth = 0 then s.i else s.gridWidth, s.gridHeight + 1, s.i + pixels.length⟩ := by
  obtain ⟨rest, rfl⟩ : ∃ rest, pixels = 0 :: rest := by
    cases pixels with
    | nil => cases hfirst
    | cons x rest => exact ⟨rest, by rw [Option.some.inj hfirst]⟩
  have hpos := (List.pairwise_cons.mp hincreasing).1
  rw [List.foldl_cons, scanPoint, if_pos rfl,
    foldl_scanPoint_rest fun x hx => (hpos x hx).ne', List.length_cons]
  dsimp only
  rw [Nat.cast_succ, Int.add_assoc, Int.add_comm 1]

theorem foldl_scanPoint_lines (hincreasing : pixels.Pairwise (· < ·))
    (hfirst : pixels.head? = some 0) (lines : List Int) (s : GridScan)
    (hwidth : s.gridWidth ≠ 0) :
    (gridList pixels lines fun pixel _ => pixel).foldl scanPoint s =
      ⟨s.gridWidth, s.gridHeight + lines.length, s.i + lines.length * pixels.length⟩ := by
  induction lines generalizing s with
  | nil => simp [gridList]
  | cons line lines ih =>
    have hsplit : (gridList pixels (line :: lines) fun pixel _ => pixel) =
        pixels ++ gridList pixels lines fun pixel _ => pixel := by
      simp [gridList]
    rw [hsplit, List.foldl_append, foldl_scanPoint_line hincreasing hfirst, if_neg hwidth,
      ih ⟨s.gridWidth, s.gridHeight + 1, s.i + pixels.length⟩ hwidth, List.length_cons]
    dsimp only
    push_cast
    congr 1
    · ring
    · ring

/-- The loop over the points counts the lines, and the columns if there is a second line. -/
theorem foldl_scanPoint (hincreasing : pixels.Pairwise (· < ·)) (hfirst : pixels.head? = some 0)
    (lines : List Int) :
    ∃ points, (gridList pixels lines fun pixel _ => pixel).foldl scanPoint ⟨0, 0, 0⟩ =
      ⟨if lines.length < 2 then 0 else pixels.length, lines.length, points⟩ := by
  have hpos : 0 < pixels.length := by
    apply List.length_pos_iff.mpr
    rintro rfl
    cases hfirst
  have hcons : ∀ line lines, (gridList pixels (line :: lines) fun pixel _ => pixel) =
      pixels ++ gridList pixels lines fun pixel _ => pixel := by
    intro line lines
    simp [gridList]
  -- the number of pixels is only known when the second line starts
  cases lines with
  | nil => exact ⟨0, rfl⟩
  | cons line lines =>
    cases lines with
    | nil =>
      refine ⟨pixels.length, ?_⟩
      rw [hcons, List.foldl_append, foldl_scanPoint_line hincreasing hfirst]
      simp [gridList]
    | cons second lines =>
      refine ⟨2 * pixels.length + lines.length * pixels.length, ?_⟩
      rw [hcons, hcons, List.foldl_append, List.foldl_append,
        foldl_scanPoint_line hincreasing hfirst, foldl_scanPoint_line hincreasing hfirst,
        foldl_scanPoint_lines hincreasing hfirst lines _
          (by simpa using List.length_pos_iff.mp hpos)]
      simp only [if_true, zero_add, List.length_cons]
      rw [if_neg (by omega)]
      push_cast
      congr 1
      · ring
      · ring

end Scan

/-! ## One axis of the grids -/

section Axis

variable {T : Type} [Field T] [LinearOrder T] [FloorRing T] [IsStrictOrderedRing T]

/-- An axis of a grid whose nodes are the raster's size over the number of intervals apart. -/
structure SpansRaster (axis : Alus.SnapEngine.GridAxis T) (rasterSize : Int) : Prop where
  size_le : axis.size ≤ rasterSize
  offset : axis.offset = 1 / 2
  subSampling : axis.subSampling = rasterSize / ((axis.size - 1 : Int) : T)

/-- The position that was sampled for the value the grid has at a pixel. -/
def sampledPosition (axis : Alus.SnapEngine.GridAxis T) (rasterSize : Int) (pixel : Int) : T :=
  cellValue (newPosition rasterSize axis.subSampling) (axis.cell (pixel + 1 / 2))
    (axis.index (pixel + 1 / 2))

variable {axis : Alus.SnapEngine.GridAxis T} {rasterSize : Int}

theorem SpansRaster.intervals_mul (h : SpansRaster axis rasterSize) :
    ((axis.size - 1 : Int) : T) * axis.subSampling = rasterSize := by
  have hsize := axis.two_le_size
  have hpos : (0 : T) < ((axis.size - 1 : Int) : T) := by
    exact_mod_cast (show (0 : Int) < axis.size - 1 by omega)
  rw [h.subSampling]
  exact mul_div_cancel₀ _ hpos.ne'

theorem SpansRaster.one_lt_subSampling (h : SpansRaster axis rasterSize) :
    1 < axis.subSampling := by
  have hsize := axis.two_le_size
  have hpos : (0 : T) < ((axis.size - 1 : Int) : T) := by
    exact_mod_cast (show (0 : Int) < axis.size - 1 by omega)
  rw [h.subSampling, one_lt_div hpos]
  have hle := h.size_le
  exact_mod_cast (show axis.size - 1 < rasterSize by omega)

omit [FloorRing T] [IsStrictOrderedRing T] in
theorem SpansRaster.index_eq (h : SpansRaster axis rasterSize) (pixel : Int) :
    axis.index (pixel + 1 / 2) = pixel / axis.subSampling := by
  unfold Alus.SnapEngine.GridAxis.index
  rw [h.offset, add_sub_cancel_right]

/-- All nodes but the last are sampled where they are placed. -/
theorem SpansRaster.newPosition_inner (h : SpansRaster axis rasterSize) {node : Int}
    (hle : node ≤ axis.size - 2) :
    newPosition rasterSize axis.subSampling node = node * axis.subSampling := by
  have hsub := h.one_lt_subSampling
  have hspan := h.intervals_mul
  have hnode : (node : T) ≤ ((axis.size - 1 : Int) : T) - 1 := by
    exact_mod_cast (show node ≤ axis.size - 1 - 1 by omega)
  have hmul : (node : T) * axis.subSampling ≤ rasterSize - axis.subSampling := by
    calc (node : T) * axis.subSampling
        ≤ (((axis.size - 1 : Int) : T) - 1) * axis.subSampling :=
          mul_le_mul_of_nonneg_right hnode (by linarith)
      _ = rasterSize - axis.subSampling := by rw [sub_mul, hspan, one_mul]
  exact if_neg (by rw [not_lt]; linarith)

/-- The last node is placed one pixel behind the raster's last, and sampled at it. -/
theorem SpansRaster.newPosition_last (h : SpansRaster axis rasterSize) :
    newPosition rasterSize axis.subSampling (axis.size - 1) = (rasterSize - 1 : T) := by
  have hspan := h.intervals_mul
  exact if_pos (by rw [hspan]; linarith)

theorem SpansRaster.sampledPosition_first (h : SpansRaster axis rasterSize) :
    sampledPosition axis rasterSize 0 = 0 := by
  have hsize := axis.two_le_size
  have hindex := h.index_eq 0
  rw [Int.cast_zero, zero_div] at hindex
  have hcell : axis.cell (((0 : Int) : T) + 1 / 2) = 0 := by
    unfold Alus.SnapEngine.GridAxis.cell Alus.SnapEngine.floorAndCrop
    rw [Int.cast_zero, hindex, Int.floor_zero]
    exact clampTo_of_mem (le_refl _) (by omega)
  unfold sampledPosition
  rw [hcell, Int.cast_zero, hindex]
  have hvalue := h.newPosition_inner (show (0 : Int) ≤ axis.size - 2 by omega)
  have hself := cellValue_self (newPosition (T := T) rasterSize axis.subSampling) 0
  rw [Int.cast_zero] at hself
  rw [hself, hvalue, Int.cast_zero, zero_mul]

/-- At the raster's last pixel the grid has a value from before it. -/
theorem SpansRaster.sampledPosition_last (h : SpansRaster axis rasterSize) :
    sampledPosition axis rasterSize (rasterSize - 1) < (rasterSize - 1 : T) := by
  have hsize := axis.two_le_size
  have hsub := h.one_lt_subSampling
  have hspan := h.intervals_mul
  have hpos : 0 < axis.subSampling := axis.subSampling_pos
  -- the last pixel lies less than one interval before the last tie point
  have hindex : axis.index (((rasterSize - 1 : Int) : T) + 1 / 2) =
      ((axis.size - 1 : Int) : T) - 1 / axis.subSampling := by
    rw [h.index_eq, eq_sub_iff_add_eq, ← add_div, div_eq_iff hpos.ne', hspan]
    push_cast
    ring
  have hinv : 0 < 1 / axis.subSampling ∧ 1 / axis.subSampling < 1 :=
    ⟨by positivity, by rw [div_lt_one hpos]; exact hsub⟩
  have hfloor : ⌊((axis.size - 1 : Int) : T) - 1 / axis.subSampling⌋ = axis.size - 2 := by
    rw [Int.floor_eq_iff]
    push_cast
    constructor <;> linarith
  have hcell : axis.cell (((rasterSize - 1 : Int) : T) + 1 / 2) = axis.size - 2 := by
    unfold Alus.SnapEngine.GridAxis.cell Alus.SnapEngine.floorAndCrop
    rw [hindex, hfloor]
    exact clampTo_of_mem (by omega) (le_refl _)
  have hnext : axis.size - 2 + 1 = axis.size - 1 := by omega
  unfold sampledPosition cellValue
  rw [hcell, hindex, hnext, h.newPosition_inner (le_refl _), h.newPosition_last]
  have hraster : (rasterSize : T) = ((axis.size : T) - 1) * axis.subSampling := by
    rw [← hspan]
    push_cast
    ring
  push_cast
  rw [hraster]
  -- the cell's value stays below the last pixel by this much
  have hgap : (((axis.size : T) - 1) * axis.subSampling - 1) -
      (((axis.size : T) - 2) * axis.subSampling + ((axis.size : T) - 1 - 1 / axis.subSampling -
        ((axis.size : T) - 2)) * (((axis.size : T) - 1) * axis.subSampling - 1 -
          ((axis.size : T) - 2) * axis.subSampling)) =
        (axis.subSampling - 1) / axis.subSampling := by
    field_simp
    ring
  have hgap_pos : 0 < (axis.subSampling - 1) / axis.subSampling := div_pos (by linarith) hpos
  linarith

end Axis

/-! ## The annotation's grid and its raster -/

/-- The geolocation grid of an annotation: its columns and lines, from the raster's first pixel to
its last. -/
structure AnnotationGeometry where
  pixels : List Int
  lines : List Int
  rasterWidth : Int
  rasterHeight : Int
  pixels_increasing : pixels.Pairwise (· < ·)
  lines_increasing : lines.Pairwise (· < ·)
  first_pixel : pixels.head? = some 0
  last_pixel : pixels.getLast? = some (rasterWidth - 1)
  last_line : lines.getLast? = some (rasterHeight - 1)
  lines_nonneg : ∀ line ∈ lines, 0 ≤ line

/-- The quantities of the points, by pixel and line. -/
structure AnnotationFields (T : Type) where
  latitude : Int → Int → T
  longitude : Int → Int → T
  incidenceAngle : Int → Int → T
  elevationAngle : Int → Int → T
  slantRangeTime : Int → Int → T

/-- The grids without angle discontinuity. -/
inductive GridQuantity where
  | latitude
  | incidentAngle
  | elevationAngle
  | slantRangeTime
  deriving DecidableEq, Repr

section Annotation

variable {T : Type} [Field T] [LinearOrder T]

/-- The grid of a quantity. -/
def ProductGrids.grid (grids : ProductGrids T) : GridQuantity → Option (TiePointGrid T)
  | .latitude => grids.latitude
  | .incidentAngle => grids.incidentAngle
  | .elevationAngle => grids.elevationAngle
  | .slantRangeTime => grids.slantRangeTime

def noGrids : ProductGrids T := ⟨none, none, none, none, none⟩

/-- The field of a quantity; slant range times are in nanoseconds. -/
def AnnotationFields.field (fields : AnnotationFields T) : GridQuantity → Int → Int → T
  | .latitude => fields.latitude
  | .incidentAngle => fields.incidenceAngle
  | .elevationAngle => fields.elevationAngle
  | .slantRangeTime => fun pixel line => fields.slantRangeTime pixel line * oneBillion

namespace AnnotationGeometry

variable (g : AnnotationGeometry)

/-- The points of the annotation. -/
def points (fields : AnnotationFields T) : List (GeoGridPoint T) :=
  gridList g.pixels g.lines fun pixel line =>
    ⟨fields.latitude pixel line, fields.longitude pixel line, fields.incidenceAngle pixel line,
      fields.elevationAngle pixel line, fields.slantRangeTime pixel line, pixel, line⟩

/-- Fewer than two lines or columns. -/
def Degenerate : Prop := g.lines.length < 2 ∨ g.pixels.length < 2

/-- The values of a field at the points are those of an affine function. -/
def IsAffine (field : Int → Int → T) (a b c : T) : Prop :=
  ∀ pixel ∈ g.pixels, ∀ line ∈ g.lines, field pixel line = a + b * pixel + c * line

variable [FloorRing T]

/-- A grid gives an affine function at every pixel of the raster. -/
def GivesAffine (grid : TiePointGrid T) (a b c : T) : Prop :=
  ∀ x y : Int, 0 ≤ x → x < g.rasterWidth → 0 ≤ y → y < g.rasterHeight →
    grid.getPixelDouble (x + 1 / 2) (y + 1 / 2) = .ok (a + b * x + c * y)

/-- The pixel where a grid places a node. -/
def nodePixel (axis : Alus.SnapEngine.GridAxis T) (node : Int) : T :=
  axis.offset + node * axis.subSampling - 1 / 2

/-- A grid gives affine fields exactly, and its nodes hold the field's interpolant where they are
placed. -/
structure ReproducesField (field : Int → Int → T) (grid : TiePointGrid T) : Prop where
  affine : ∀ a b c, g.IsAffine field a b c → g.GivesAffine grid a b c
  nodes : ∀ column row, 0 ≤ column → column < grid.x.size → 0 ≤ row → row < grid.y.size →
    grid.node column row =
      bilinearAt g.pixels g.lines field (nodePixel grid.x column) (nodePixel grid.y row)

/-- With this grid's raster no grids are added to a product without any, or grids that reproduce
the annotation's quantities. -/
def Reproduces (T : Type) [Field T] [LinearOrder T] [FloorRing T] : Prop :=
  ∀ (fields : AnnotationFields T) (productRaster : Int × Int) (bandRaster : Option (Int × Int))
    (tpgPrefix : String), bandRaster.getD productRaster = (g.rasterWidth, g.rasterHeight) →
    (g.Degenerate ∧ addTiePointGrids noGrids productRaster bandRaster tpgPrefix (g.points fields) =
      .ok noGrids) ∨
    ∃ grids, addTiePointGrids noGrids productRaster bandRaster tpgPrefix (g.points fields) =
      .ok grids ∧ ∀ q, ∃ grid, grids.grid q = some grid ∧ g.ReproducesField (fields.field q) grid

/-! ## The grids that are added -/

/-- A grid of the raster whose nodes hold the field's interpolant where they are sampled. -/
structure Resampled (field : Int → Int → T) (grid : TiePointGrid T) : Prop where
  spansX : SpansRaster grid.x g.rasterWidth
  spansY : SpansRaster grid.y g.rasterHeight
  nodes : ∀ column row, 0 ≤ column → column < grid.x.size → 0 ≤ row → row < grid.y.size →
    grid.node column row = bilinearAt g.pixels g.lines field
      (newPosition g.rasterWidth grid.x.subSampling column)
      (newPosition g.rasterHeight grid.y.subSampling row)

end AnnotationGeometry

/-- In an increasing list of natural numbers the entries are at least their positions. -/
theorem le_getElem_of_increasing {l : List Int} (h : l.Pairwise (· < ·)) (hpos : ∀ z ∈ l, 0 ≤ z)
    {i : Nat} (hi : i < l.length) : (i : Int) ≤ l[i] := by
  induction i with
  | zero => exact hpos _ (List.getElem_mem hi)
  | succ i ih =>
    have hprevious := ih (by omega)
    have hlt : l[i] < l[i + 1] := List.pairwise_iff_getElem.mp h _ _ _ _ (Nat.lt_succ_self i)
    push_cast
    omega

theorem length_le_of_last {l : List Int} (h : l.Pairwise (· < ·)) (hpos : ∀ z ∈ l, 0 ≤ z)
    {size : Int} (hlast : l.getLast? = some (size - 1)) : (l.length : Int) ≤ size := by
  have hne : l ≠ [] := by
    rintro rfl
    cases hlast
  have hlen : 0 < l.length := List.length_pos_iff.mpr hne
  rw [List.getLast?_eq_getElem?, List.getElem?_eq_getElem (by omega), Option.some_inj] at hlast
  have hle := le_getElem_of_increasing h hpos (show l.length - 1 < l.length by omega)
  omega

namespace AnnotationGeometry

variable (g : AnnotationGeometry)

theorem pixels_nonneg : ∀ pixel ∈ g.pixels, 0 ≤ pixel := by
  have hfirst := g.first_pixel
  have hincreasing := g.pixels_increasing
  cases hpixels : g.pixels with
  | nil =>
    rw [hpixels] at hfirst
    cases hfirst
  | cons first rest =>
    rw [hpixels] at hfirst hincreasing
    obtain rfl : first = 0 := Option.some.inj hfirst
    intro pixel hpixel
    cases hpixel with
    | head => exact le_refl 0
    | tail _ hmem => exact ((List.pairwise_cons.mp hincreasing).1 pixel hmem).le

theorem length_pixels_le : (g.pixels.length : Int) ≤ g.rasterWidth :=
  length_le_of_last g.pixels_increasing g.pixels_nonneg g.last_pixel

theorem length_lines_le : (g.lines.length : Int) ≤ g.rasterHeight :=
  length_le_of_last g.lines_increasing g.lines_nonneg g.last_line

variable [FloorRing T] [IsStrictOrderedRing T]

omit [LinearOrder T] [FloorRing T] [IsStrictOrderedRing T] in
theorem map_points {β : Type} (fields : AnnotationFields T) (h : GeoGridPoint T → β) :
    (g.points fields).map h = gridList g.pixels g.lines fun pixel line =>
      h ⟨fields.latitude pixel line, fields.longitude pixel line,
        fields.incidenceAngle pixel line, fields.elevationAngle pixel line,
        fields.slantRangeTime pixel line, pixel, line⟩ :=
  map_gridList h _

theorem pixels_points (fields : AnnotationFields T) :
    ((g.points fields).map fun p => toInt p.pixel) =
      gridList g.pixels g.lines fun pixel _ => pixel := by
  rw [g.map_points]
  simp only [toInt_intCast]

theorem lines_points (fields : AnnotationFields T) :
    ((g.points fields).map fun p => toInt p.line) =
      gridList g.pixels g.lines fun _ line => line := by
  rw [g.map_points]
  simp only [toInt_intCast]

omit [FloorRing T] [IsStrictOrderedRing T] in
/-- The corrected longitudes are the values of a field again. -/
theorem exists_correctAntimeridian (field : Int → Int → T) :
    ∃ corrected, correctAntimeridian (gridList g.pixels g.lines field) =
      gridList g.pixels g.lines corrected := by
  unfold correctAntimeridian
  split
  · exact ⟨_, map_gridList _ field⟩
  · exact ⟨field, rfl⟩

/-- The target grid for this raster. -/
def target (T : Type) [Field T] : TargetGrid T where
  sceneRasterWidth := g.rasterWidth
  sceneRasterHeight := g.rasterHeight
  width := g.pixels.length
  height := g.lines.length
  subSamplingX := g.rasterWidth / (((g.pixels.length : Int) - 1 : Int) : T)
  subSamplingY := g.rasterHeight / (((g.lines.length : Int) - 1 : Int) : T)

/-- The nodes of a resampled field. -/
def resampledList (field : Int → Int → T) : List T :=
  rowMajor g.pixels.length g.lines.length fun column row => bilinearAt g.pixels g.lines field
    (newPosition g.rasterWidth (g.target T).subSamplingX column)
    (newPosition g.rasterHeight (g.target T).subSamplingY row)

omit [LinearOrder T] [FloorRing T] [IsStrictOrderedRing T] in
theorem not_degenerate_iff : ¬ g.Degenerate ↔ 2 ≤ g.lines.length ∧ 2 ≤ g.pixels.length := by
  unfold Degenerate
  omega

/-- The sub-sampling along an axis is positive. -/
theorem spacing_pos {size rasterSize : Int} (hsize : 2 ≤ size) (hle : size ≤ rasterSize) :
    (0 : T) < rasterSize / ((size - 1 : Int) : T) := by
  apply div_pos
  · exact_mod_cast (show (0 : Int) < rasterSize by omega)
  · exact_mod_cast (show (0 : Int) < size - 1 by omega)

/-- A grid is made of the nodes of a resampled field. -/
theorem exists_ensureGrid (hdegenerate : ¬ g.Degenerate) (name : String)
    (field : Int → Int → T) :
    ∃ grid, ensureGrid none name (g.target T) (g.resampledList field) = .ok grid ∧
      g.Resampled field grid ∧ grid.x.size = g.pixels.length ∧ grid.y.size = g.lines.length ∧
      grid.x.offset = 1 / 2 ∧ grid.y.offset = 1 / 2 ∧
      grid.x.subSampling = (g.target T).subSamplingX ∧
      grid.y.subSampling = (g.target T).subSamplingY := by
  obtain ⟨hheight, hwidth⟩ := g.not_degenerate_iff.mp hdegenerate
  have hsize : (2 : Int) ≤ g.pixels.length ∧ (2 : Int) ≤ g.lines.length := by omega
  have hx := spacing_pos (T := T) hsize.1 g.length_pixels_le
  have hy := spacing_pos (T := T) hsize.2 g.length_lines_le
  have hlength : ((g.resampledList field).length : Int) = g.pixels.length * g.lines.length :=
    length_rowMajor (by omega) (by omega) _
  refine ⟨⟨⟨name, ⟨g.pixels.length, 1 / 2, (g.target T).subSamplingX, hsize.1, hx⟩,
    ⟨g.lines.length, 1 / 2, (g.target T).subSamplingY, hsize.2, hy⟩, none⟩,
    g.resampledList field, hlength⟩, ?_, ⟨⟨g.length_pixels_le, rfl, rfl⟩,
      ⟨g.length_lines_le, rfl, rfl⟩, ?_⟩, rfl, rfl, rfl, rfl, rfl, rfl⟩
  · exact dif_pos ⟨⟨hsize.1, hx⟩, ⟨hsize.2, hy⟩, hlength⟩
  · intro column row hcolumn hcolumn' hrow hrow'
    have hread := vectorIndex_rowMajor hcolumn hcolumn' hrow hrow' fun column row =>
      bilinearAt g.pixels g.lines field
        (newPosition g.rasterWidth (g.target T).subSamplingX column)
        (newPosition g.rasterHeight (g.target T).subSamplingY row)
    rw [Int.mul_comm, Int.add_comm] at hread
    have hget := (vectorIndex_eq_ok.mp hread).2
    exact congrArg (Option.getD · 0) hget

/-- Grids are added unless there are fewer than two lines or columns. -/
theorem exists_addTiePointGrids (hdegenerate : ¬ g.Degenerate) (fields : AnnotationFields T)
    (productRaster : Int × Int) (bandRaster : Option (Int × Int)) (tpgPrefix : String)
    (hraster : bandRaster.getD productRaster = (g.rasterWidth, g.rasterHeight)) :
    ∃ grids, addTiePointGrids noGrids productRaster bandRaster tpgPrefix (g.points fields) =
      .ok grids ∧ ∀ q, ∃ grid, grids.grid q = some grid ∧ g.Resampled (fields.field q) grid := by
  obtain ⟨hheight, hwidth⟩ := g.not_degenerate_iff.mp hdegenerate
  have hrasterWidth := g.length_pixels_le
  have hrasterHeight := g.length_lines_le
  obtain ⟨corrected, hcorrected⟩ := g.exists_correctAntimeridian fields.longitude
  obtain ⟨points, hscan⟩ := foldl_scanPoint g.pixels_increasing g.first_pixel g.lines
  rw [if_neg (by omega)] at hscan
  -- every list is resampled in the same way
  have hresample : ∀ field : Int → Int → T, getListInEvenlySpacedGrid
      ⟨g.pixels.length, g.lines.length, gridList g.pixels g.lines fun pixel _ => pixel,
        gridList g.pixels g.lines fun _ line => line, gridList g.pixels g.lines field⟩
      (g.target T) = .ok (g.resampledList field) := fun field =>
    getListInEvenlySpacedGrid_eq g.pixels_increasing g.lines_increasing hwidth hheight field _
  generalize hpre : (if tpgPrefix.isEmpty then "" else tpgPrefix ++ "_") = pre
  obtain ⟨lat, hlat, hlatGrid, hlatWidth, hlatHeight, hlatX, hlatY, hlatSubX, hlatSubY⟩ :=
    g.exists_ensureGrid hdegenerate (pre ++ "latitude") fields.latitude
  obtain ⟨lon, hlon, -, hlonWidth, hlonHeight, hlonX, hlonY, hlonSubX, hlonSubY⟩ :=
    g.exists_ensureGrid hdegenerate (pre ++ "longitude") corrected
  obtain ⟨inc, hinc, hincGrid, -⟩ :=
    g.exists_ensureGrid hdegenerate (pre ++ "incident_angle") fields.incidenceAngle
  obtain ⟨elev, helev, helevGrid, -⟩ :=
    g.exists_ensureGrid hdegenerate (pre ++ "elevation_angle") fields.elevationAngle
  obtain ⟨slrt, hslrt, hslrtGrid, -⟩ := g.exists_ensureGrid hdegenerate
    (pre ++ "slant_range_time") fun pixel line => fields.slantRangeTime pixel line * oneBillion
  -- the two grids of the coordinates have one geometry
  have hcheck : checkGeoCoding lat lon = .ok ⟨⟩ := Outcome.require_of
    ⟨⟨by rw [hlatWidth, hlonWidth], by rw [hlatHeight, hlonHeight]⟩,
      ⟨by rw [hlatX, hlonX], by rw [hlatY, hlonY]⟩, by rw [hlatSubX, hlonSubX],
      by rw [hlatSubY, hlonSubY]⟩
  refine ⟨⟨some lat, some lon, some inc, some elev, some slrt⟩, ?_, ?_⟩
  · unfold addTiePointGrids noGrids
    dsimp only
    rw [hpre, g.pixels_points, g.lines_points, hscan, hraster]
    dsimp only
    rw [if_neg (by omega), g.map_points, g.map_points, g.map_points, g.map_points, g.map_points,
      hcorrected]
    have htarget : (⟨g.rasterWidth, g.rasterHeight, g.pixels.length, g.lines.length,
        g.rasterWidth / (((g.pixels.length : Int) - 1 : Int) : T),
        g.rasterHeight / (((g.lines.length : Int) - 1 : Int) : T)⟩ : TargetGrid T) =
          g.target T := rfl
    rw [htarget, hresample, Outcome.ok_bind, hresample, Outcome.ok_bind, hresample,
      Outcome.ok_bind, hresample, Outcome.ok_bind, hresample, Outcome.ok_bind, hlat,
      Outcome.ok_bind, hlon, Outcome.ok_bind, hinc, Outcome.ok_bind, helev, Outcome.ok_bind,
      hslrt, Outcome.ok_bind, hcheck, Outcome.ok_bind]
    rfl
  · intro q
    cases q with
    | latitude => exact ⟨lat, rfl, hlatGrid⟩
    | incidentAngle => exact ⟨inc, rfl, hincGrid⟩
    | elevationAngle => exact ⟨elev, rfl, helevGrid⟩
    | slantRangeTime => exact ⟨slrt, rfl, hslrtGrid⟩

theorem addTiePointGrids_degenerate (hdegenerate : g.Degenerate) (fields : AnnotationFields T)
    (productRaster : Int × Int) (bandRaster : Option (Int × Int)) (tpgPrefix : String) :
    addTiePointGrids noGrids productRaster bandRaster tpgPrefix (g.points fields) =
      .ok noGrids := by
  obtain ⟨points, hscan⟩ := foldl_scanPoint g.pixels_increasing g.first_pixel g.lines
  unfold addTiePointGrids
  dsimp only [noGrids]
  rw [g.pixels_points, hscan]
  dsimp only
  rw [if_pos]
  · rfl
  · unfold Degenerate at hdegenerate
    split <;> omega

/-! ## Affine fields -/

omit [FloorRing T] [LinearOrder T] [IsStrictOrderedRing T] in
/-- An affine function of two positions that are interpolated. -/
theorem cellValue_affine (X Y : Int → T) (a b c : T) (i j : Int) (s t : T) :
    cellValue (fun m => cellValue (fun n => a + b * X m + c * Y n) j t) i s =
      a + b * cellValue X i s + c * cellValue Y j t := by
  unfold cellValue
  ring

variable {g}

/-- A grid gives the values of an affine field at the positions that were sampled. -/
theorem Resampled.getPixelDouble_eq (hdegenerate : ¬ g.Degenerate) {field : Int → Int → T}
    {grid : TiePointGrid T} (h : g.Resampled field grid) {a b c : T}
    (haffine : g.IsAffine field a b c) (x y : Int) :
    grid.getPixelDouble (x + 1 / 2) (y + 1 / 2) =
      .ok (a + b * sampledPosition grid.x g.rasterWidth x +
        c * sampledPosition grid.y g.rasterHeight y) := by
  obtain ⟨hheight, hwidth⟩ := g.not_degenerate_iff.mp hdegenerate
  obtain ⟨hi, hi_le⟩ := grid.x.cell_mem (x + 1 / 2)
  obtain ⟨hj, hj_le⟩ := grid.y.cell_mem (y + 1 / 2)
  have hnode : ∀ m n, 0 ≤ m → m < grid.x.size → 0 ≤ n → n < grid.y.size →
      grid.node m n = a + b * newPosition g.rasterWidth grid.x.subSampling m +
        c * newPosition g.rasterHeight grid.y.subSampling n := by
    intro m n hm hm' hn hn'
    rw [h.nodes m n hm hm' hn hn', bilinearAt_affine g.pixels_increasing g.lines_increasing
      hwidth hheight haffine]
  rw [grid.getPixelDouble_eq, sampledPosition, sampledPosition, ← cellValue_affine]
  congr 1
  have hcolumn : ∀ m, 0 ≤ m → m < grid.x.size →
      cellValue (grid.node m) (grid.y.cell (y + 1 / 2)) (grid.y.index (y + 1 / 2)) =
        cellValue (fun n => a + b * newPosition g.rasterWidth grid.x.subSampling m +
          c * newPosition g.rasterHeight grid.y.subSampling n) (grid.y.cell (y + 1 / 2))
            (grid.y.index (y + 1 / 2)) := fun m hm hm' =>
    cellValue_congr (hnode m _ hm hm' hj (by omega)) (hnode m _ hm hm' (by omega) (by omega)) _
  exact cellValue_congr (hcolumn _ hi (by omega)) (hcolumn _ (by omega) (by omega)) _

/-- Only constant fields survive the shift of the last column and line. -/
theorem Resampled.givesAffine_iff (hdegenerate : ¬ g.Degenerate) {field : Int → Int → T}
    {grid : TiePointGrid T} (h : g.Resampled field grid) {a b c : T}
    (haffine : g.IsAffine field a b c) : g.GivesAffine grid a b c ↔ b = 0 ∧ c = 0 := by
  obtain ⟨hheight, hwidth⟩ := g.not_degenerate_iff.mp hdegenerate
  have hrasterWidth := g.length_pixels_le
  have hrasterHeight := g.length_lines_le
  have hvalue := h.getPixelDouble_eq hdegenerate haffine
  constructor
  · intro hgives
    have hx := hgives (g.rasterWidth - 1) 0 (by omega) (by omega) (le_refl 0) (by omega)
    have hy := hgives 0 (g.rasterHeight - 1) (le_refl 0) (by omega) (by omega) (by omega)
    rw [hvalue, h.spansY.sampledPosition_first] at hx
    rw [hvalue, h.spansX.sampledPosition_first] at hy
    have hx := Outcome.ok.inj hx
    have hy := Outcome.ok.inj hy
    have hlastX := h.spansX.sampledPosition_last
    have hlastY := h.spansY.sampledPosition_last
    push_cast at hx hy
    have hb : b * (sampledPosition grid.x g.rasterWidth (g.rasterWidth - 1) -
        (g.rasterWidth - 1 : T)) = 0 := by linarith
    have hc : c * (sampledPosition grid.y g.rasterHeight (g.rasterHeight - 1) -
        (g.rasterHeight - 1 : T)) = 0 := by linarith
    exact ⟨(mul_eq_zero.mp hb).resolve_right (sub_neg.mpr hlastX).ne,
      (mul_eq_zero.mp hc).resolve_right (sub_neg.mpr hlastY).ne⟩
  · intro hzero x y _ _ _ _
    rw [hvalue, hzero.1, hzero.2]
    simp

end AnnotationGeometry

/-- Where grids are added, the number of the pixel is not reproduced. -/
theorem AnnotationGeometry.not_reproduces (g : AnnotationGeometry) (T : Type) [Field T]
    [LinearOrder T] [FloorRing T] [IsStrictOrderedRing T] (hdegenerate : ¬ g.Degenerate) :
    ¬ g.Reproduces T := by
  intro h
  let pixelField : Int → Int → T := fun pixel _ => pixel
  let fields : AnnotationFields T :=
    ⟨pixelField, pixelField, pixelField, pixelField, pixelField⟩
  have haffine : g.IsAffine pixelField 0 1 0 := by
    intro pixel _ line _
    show (pixel : T) = 0 + 1 * pixel + 0 * line
    ring
  obtain ⟨grids, hgrids, hadded⟩ := g.exists_addTiePointGrids hdegenerate fields
    (g.rasterWidth, g.rasterHeight) none "" rfl
  obtain ⟨grid, hgrid, hresampled⟩ := hadded .latitude
  rcases h fields (g.rasterWidth, g.rasterHeight) none "" rfl with ⟨hno, -⟩ | ⟨grids', hgrids', h'⟩
  · exact hdegenerate hno
  · rw [hgrids] at hgrids'
    cases hgrids'
    obtain ⟨grid', hgrid', hreproduces⟩ := h' .latitude
    rw [hgrid] at hgrid'
    cases hgrid'
    have hgives := hreproduces.affine 0 1 0 haffine
    exact one_ne_zero ((hresampled.givesAffine_iff hdegenerate haffine).mp hgives).1

/-- The annotation's grid is reproduced where no tie point grids are added. Where they are, the
affine fields that they give are the constant ones. -/
theorem annotationGrids_reproduce_iff [FloorRing T] [IsStrictOrderedRing T]
    (g : AnnotationGeometry) :
    (g.Reproduces T ↔ g.Degenerate) ∧
    (¬ g.Degenerate → ∀ (fields : AnnotationFields T) (productRaster : Int × Int)
      (bandRaster : Option (Int × Int)) (tpgPrefix : String),
      bandRaster.getD productRaster = (g.rasterWidth, g.rasterHeight) →
      ∃ grids, addTiePointGrids noGrids productRaster bandRaster tpgPrefix (g.points fields) =
        .ok grids ∧ ∀ q, ∃ grid, grids.grid q = some grid ∧ g.Resampled (fields.field q) grid ∧
          ∀ a b c, g.IsAffine (fields.field q) a b c →
            (g.GivesAffine grid a b c ↔ b = 0 ∧ c = 0)) := by
  refine ⟨⟨fun h => ?_, fun hdegenerate fields productRaster bandRaster tpgPrefix _ =>
    .inl ⟨hdegenerate, g.addTiePointGrids_degenerate hdegenerate _ _ _ _⟩⟩, ?_⟩
  · by_contra hdegenerate
    exact g.not_reproduces T hdegenerate h
  · intro hdegenerate fields productRaster bandRaster tpgPrefix hraster
    obtain ⟨grids, hgrids, hadded⟩ := g.exists_addTiePointGrids hdegenerate fields productRaster
      bandRaster tpgPrefix hraster
    refine ⟨grids, hgrids, fun q => ?_⟩
    obtain ⟨grid, hgrid, hresampled⟩ := hadded q
    exact ⟨grid, hgrid, hresampled, fun a b c haffine =>
      hresampled.givesAffine_iff hdegenerate haffine⟩

end Annotation

/-- Two columns and two lines, at the corners of a raster of two by two pixels. -/
def fourCorners : AnnotationGeometry where
  pixels := [0, 1]
  lines := [0, 1]
  rasterWidth := 2
  rasterHeight := 2
  pixels_increasing := by decide
  lines_increasing := by decide
  first_pixel := rfl
  last_pixel := rfl
  last_line := rfl
  lines_nonneg := by decide

/-- The number of the pixel as every quantity. -/
def pixelNumbers : AnnotationFields ℚ where
  latitude pixel _ := pixel
  longitude pixel _ := pixel
  incidenceAngle pixel _ := pixel
  elevationAngle pixel _ := pixel
  slantRangeTime pixel _ := pixel

/-- At the last pixel the grid is half a pixel off. -/
theorem fourCorners_not_reproduced : ¬ fourCorners.Reproduces ℚ ∧
    ∃ grids grid, addTiePointGrids noGrids (2, 2) none "" (fourCorners.points pixelNumbers) =
      .ok grids ∧ grids.grid .latitude = some grid ∧
        grid.getPixelDouble (1 + 1 / 2) (0 + 1 / 2) = .ok (1 / 2) := by
  refine ⟨fourCorners.not_reproduces ℚ (by unfold AnnotationGeometry.Degenerate; decide), ?_⟩
  have hread : (addTiePointGrids noGrids (2, 2) none "" (fourCorners.points pixelNumbers) >>=
      fun grids => match grids.grid .latitude with
        | some grid => grid.getPixelDouble (1 + 1 / 2) (0 + 1 / 2)
        | none => .throws) = .ok (1 / 2) := by decide +kernel
  obtain ⟨grids, hgrids, hvalue⟩ := Outcome.bind_eq_ok.mp hread
  cases hgrid : grids.grid .latitude with
  | none =>
    rw [hgrid] at hvalue
    cases hvalue
  | some grid =>
    rw [hgrid] at hvalue
    exact ⟨grids, grid, hgrids, hgrid, hvalue⟩

/-- The corners again, where the theorem applies. -/
theorem fourCorners_reproduce_iff : fourCorners.Reproduces ℚ ↔ fourCorners.Degenerate :=
  (annotationGrids_reproduce_iff (T := ℚ) fourCorners).1

end Alus.S1tbx.AnnotationGrids
