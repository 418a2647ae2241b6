import Alus.Lib.Run
import Alus.SnapEngine.TiePointGrid

/-!
# The raster of a tie point grid

The pixels of a tie point grid are read one by one (`GetPixelDouble`), for a rectangle
(`GetPixels`), from a raster that is created when it is first asked for (`GetRasterData`,
`ReadRasterData`; all in `tie_point_grid.cc`), and on the device (`GetPixelDoubleImpl`,
`tie_point_grid.cuh`). `GetPixels` takes its destination by value, so that the raster stays as it
was created, and `ReadRasterData` reads it in lines of the width that is asked for.

The arithmetic is exact, and the grids have no angle discontinuity.
-/

namespace Alus.SnapEngine

open Alus.Lib

section Raster

variable {T : Type} [Field T] [LinearOrder T] [FloorRing T]

/-! ## Single pixels -/

namespace TiePointGrid

/-- `GetPixelDouble` of a pixel: at its centre. -/
def getPixelDoubleAt (grid : TiePointGrid T) (x y : Int) : Outcome T :=
  grid.getPixelDouble (x + 1 / 2) (y + 1 / 2)

/-- `GetPixelFloat`. -/
def getPixelFloat (grid : TiePointGrid T) (x y : Int) : Outcome T :=
  grid.getPixelDouble ((x : T) + 1 / 2) ((y : T) + 1 / 2)

/-- `GetPixelInt`. -/
def getPixelInt (grid : TiePointGrid T) (x y : Int) : Outcome Int := do
  let value ← grid.getPixelDoubleAt x y
  return stdRound value

end TiePointGrid

/-! ## Rectangles -/

/-- The elements of a destination. The positions that have been written, in this order, are not in
the source. -/
structure Destination (α : Type) where
  elems : List α
  written : List Int

/-- A store into a destination. -/
def Destination.put {α : Type} (store : List α → Int → α → Outcome (List α)) (d : Destination α)
    (i : Int) (a : α) : Outcome (Destination α) := do
  let elems ← store d.elems i a
  return ⟨elems, d.written ++ [i]⟩

/-- `EnsureMinLengthArray`. A vector of negative size throws. -/
def ensureMinLengthArray {α : Type} [Zero α] (array : List α) (length : Int) : Outcome (List α) :=
  if array = [] then
    if 0 ≤ length then .ok (List.replicate length.toNat 0) else .throws
  else if length < 0 ∨ array.length < length then .throws
  else .ok array

/-- The loops over the lines of a rectangle and their pixels, which fill a destination from its
start on. -/
def fillRectangle {α : Type} (store : List α → Int → α → Outcome (List α))
    (value : Int → Int → Outcome α) (rect : Rectangle) (elems : List α) :
    Outcome (Destination α) := do
  let result ← (intRange rect.y (rect.y + rect.height)).foldlM (fun s y =>
    (intRange rect.x (rect.x + rect.width)).foldlM (fun (s : Destination α × Int) x => do
      let a ← value x y
      let d ← s.1.put store s.2 a
      return (d, s.2 + 1)) s) (⟨elems, []⟩, 0)
  return result.1

/-- `CreateCompatibleRasterData`. A vector of negative size throws. -/
def createCompatibleRasterData (width height : Int) : Outcome (List T) :=
  if 0 ≤ width * height then .ok (List.replicate (width * height).toNat 0) else .throws

namespace TiePointGrid

/-- `GetPixels` for `double`. -/
def getPixels (grid : TiePointGrid T) (rect : Rectangle) (pixels : List T) :
    Outcome (Destination T) := do
  let pixels ← ensureMinLengthArray pixels (rect.width * rect.height)
  let x0 := 1 / 2 - grid.x.offset
  let y0 := 1 / 2 - grid.y.offset
  fillRectangle storeIndex (fun x y =>
    let fj := (y + y0) / grid.y.subSampling
    let j := floorAndCrop fj 0 (grid.y.size - 2)
    let fi := (x + x0) / grid.x.subSampling
    let i := floorAndCrop fi 0 (grid.x.size - 2)
    grid.interpolate (fi - i) (fj - j) i j) rect pixels

/-- `GetPixels` for `float` and `int`, with their conversion from `double`. -/
def getPixelsAs {α : Type} [Zero α] (convert : T → α) (grid : TiePointGrid T) (rect : Rectangle)
    (pixels : List α) : Outcome (Destination α) := do
  let pixels ← ensureMinLengthArray pixels (rect.width * rect.height)
  -- all pixels are computed in `double` first
  let fpixels ← grid.getPixels rect []
  (intRange 0 fpixels.elems.length).foldlM (fun d i => do
    let value ← vectorAt fpixels.elems i
    d.put storeAt i (convert value)) ⟨pixels, []⟩

/-! ## The raster that is kept -/

/-- `GetRasterData`, with `raster_data_` before and after it. -/
def getRasterData (grid : TiePointGrid T) (rasterData : Option (List T)) :
    Outcome (List T × Option (List T)) :=
  let width := grid.raster.width
  let height := grid.raster.height
  -- as many tie points as pixels are taken for the pixels
  if (grid.tiePoints.length : Int) = width * height then .ok (grid.tiePoints, rasterData)
  else
    match rasterData with
    | some data => .ok (data, some data)
    | none => do
      let data ← createCompatibleRasterData width height
      -- the pixels are returned, not stored
      let _ ← grid.getPixelsAs id ⟨0, 0, width, height⟩ data
      return (data, some data)

/-- The calls of `GetRasterData`, by `raster_data_`. -/
def rasterSystem (grid : TiePointGrid T) : System (Option (List T)) where
  init rasterData := rasterData = none
  step rasterData rasterData' := ∃ data, grid.getRasterData rasterData = .ok (data, rasterData')

/-- `ReadRasterData`. -/
def readRasterData (grid : TiePointGrid T) (rasterData : Option (List T)) (rect : Rectangle)
    (buffer : List T) : Outcome (Destination T) := do
  let (src, _) ← grid.getRasterData rasterData
  -- the source is indexed with the width of the rectangle
  fillRectangle storeAt (fun x y =>
    vectorAt src ((rect.y + y) * rect.width + (rect.x + x))) ⟨0, 0, rect.width, rect.height⟩ buffer

end TiePointGrid

/-! ## The device -/

/-- `tiepointgrid::TiePointGrid`. -/
structure DeviceGrid (T : Type) where
  offsetX : T
  offsetY : T
  subSamplingX : T
  subSamplingY : T
  gridWidth : Int
  gridHeight : Int
  tiePoints : List T

/-- `Interpolate` of the device. -/
def DeviceGrid.interpolate (grid : DeviceGrid T) (wi wj : T) (i0 j0 : Int) : Outcome T := do
  let w := grid.gridWidth
  let j1 := j0 + 1
  let i1 := i0 + 1
  let x00 ← vectorIndex grid.tiePoints (i0 + j0 * w)
  let x10 ← vectorIndex grid.tiePoints (i1 + j0 * w)
  let x01 ← vectorIndex grid.tiePoints (i0 + j1 * w)
  let x11 ← vectorIndex grid.tiePoints (i1 + j1 * w)
  return interpolate2D wi wj x00 x10 x01 x11

/-- `GetPixelDoubleImpl`. -/
def getPixelDoubleImpl (x y : T) (grid : DeviceGrid T) : Outcome T :=
  let fi := (x - grid.offsetX) / grid.subSamplingX
  let fj := (y - grid.offsetY) / grid.subSamplingY
  let i := floorAndCrop fi 0 (grid.gridWidth - 2)
  let j := floorAndCrop fj 0 (grid.gridHeight - 2)
  grid.interpolate (fi - i) (fj - j) i j

/-- A grid as it is handed to the device. -/
def TiePointGrid.toDevice (grid : TiePointGrid T) : DeviceGrid T :=
  ⟨grid.x.offset, grid.y.offset, grid.x.subSampling, grid.y.subSampling, grid.x.size, grid.y.size,
    grid.tiePoints⟩

end Raster

/-! ## What the loops store -/

section Filling

variable {α : Type} {values original : List α}

/-- A store is one where the position is in the destination. -/
def Stores (store : List α → Int → α → Outcome (List α)) : Prop :=
  ∀ (l : List α) (i : Nat) (a : α), i < l.length → store l i a = .ok (l.set i a)

theorem stores_storeAt : Stores (α := α) storeAt := fun l i a hi =>
  if_pos ⟨by omega, by omega⟩

theorem stores_storeIndex : Stores (α := α) storeIndex := fun l i a hi =>
  if_pos ⟨by omega, by omega⟩

/-- The first values are stored, each once and in order; the rest of the destination is as it
was. -/
structure Filled (values original : List α) (k : Nat) (d : Destination α) : Prop where
  elems : d.elems = values.take k ++ original.drop k
  written : d.written = intRange 0 k

theorem filled_start (values original : List α) : Filled values original 0 ⟨original, []⟩ :=
  ⟨by simp, rfl⟩

/-- The next value is stored. -/
theorem Filled.exists_put {store : List α → Int → α → Outcome (List α)} (hstore : Stores store)
    {k : Nat} {d : Destination α} (h : Filled values original k d) {a : α}
    (ha : values[k]? = some a) (hlength : values.length ≤ original.length) :
    ∃ d', d.put store k a = .ok d' ∧ Filled values original (k + 1) d' := by
  obtain ⟨hk, hget⟩ := List.getElem?_eq_some_iff.mp ha
  have hkd : k < d.elems.length := by
    rw [h.elems, List.length_append, List.length_take, List.length_drop]
    omega
  refine ⟨⟨d.elems.set k a, d.written ++ [(k : Int)]⟩, ?_, ?_, ?_⟩
  · unfold Destination.put
    rw [hstore d.elems k a hkd]
    rfl
  · have htake : (values.take k).length = k := by
      rw [List.length_take]
      omega
    rw [h.elems, List.set_append_right _ _ (by omega), htake, Nat.sub_self,
      List.drop_eq_getElem_cons (by omega), List.set_cons_zero,
      List.take_succ_eq_append_getElem hk, hget, List.append_assoc]
    rfl
  · have hnext : intRange 0 ((k : Int) + 1) = intRange 0 k ++ [(k : Int)] :=
      intRange_succ (by omega)
    rw [h.written, Nat.cast_succ, hnext]

/-- The loops over a rectangle store its pixels row by row. -/
theorem exists_fillRectangle {store : List α → Int → α → Outcome (List α)}
    (hstore : Stores store) {value : Int → Int → Outcome α} (rect : Rectangle)
    (hwidth : 0 ≤ rect.width) (hheight : 0 ≤ rect.height) {g : Int → Int → α}
    (hvalue : ∀ x y, rect.x ≤ x → x < rect.x + rect.width → rect.y ≤ y →
      y < rect.y + rect.height → value x y = .ok (g x y))
    {elems : List α} (hsize : rect.width * rect.height ≤ elems.length) :
    ∃ d, fillRectangle store value rect elems = .ok d ∧
      d.written = intRange 0 (rect.width * rect.height) ∧
      d.elems = rowMajor rect.width rect.height (fun a b => g (rect.x + a) (rect.y + b)) ++
        elems.drop (rect.width * rect.height).toNat := by
  have hlength := length_rowMajor hwidth hheight fun a b => g (rect.x + a) (rect.y + b)
  generalize hvalues : rowMajor rect.width rect.height
    (fun a b => g (rect.x + a) (rect.y + b)) = values at hlength ⊢
  -- the next element of the buffer is the next pixel
  have hpixel : ∀ x y (s : Destination α × Int), rect.x ≤ x → x < rect.x + rect.width →
      rect.y ≤ y → y < rect.y + rect.height →
      (s.2 = (x - rect.x) + (y - rect.y) * rect.width ∧ Filled values elems s.2.toNat s.1) →
      ∃ s', (do
        let a ← value x y
        let d ← s.1.put store s.2 a
        return (d, s.2 + 1) : Outcome (Destination α × Int)) = .ok s' ∧
          s'.2 = (x - rect.x) + (y - rect.y) * rect.width + 1 ∧
            Filled values elems s'.2.toNat s'.1 := by
    rintro x y ⟨d, pos⟩ hx hx' hy hy' ⟨hpos, hfilled⟩
    dsimp only at hpos hfilled
    have hrow : 0 ≤ (y - rect.y) * rect.width := Int.mul_nonneg (by omega) hwidth
    obtain ⟨k, rfl⟩ : ∃ k : Nat, pos = k := ⟨pos.toNat, by omega⟩
    rw [Int.toNat_natCast] at hfilled
    have hread := vectorIndex_rowMajor (show 0 ≤ x - rect.x by omega)
      (show x - rect.x < rect.width by omega) (show 0 ≤ y - rect.y by omega)
      (show y - rect.y < rect.height by omega) fun a b => g (rect.x + a) (rect.y + b)
    rw [hvalues, Int.mul_comm, Int.add_comm, ← hpos, vectorIndex_eq_ok, Int.toNat_natCast,
      show rect.x + (x - rect.x) = x by omega, show rect.y + (y - rect.y) = y by omega] at hread
    obtain ⟨d', hput, hfilled'⟩ := hfilled.exists_put hstore hread.2 (by omega)
    refine ⟨(d', (k : Int) + 1), ?_, ?_, ?_⟩
    · rw [hvalue x y hx hx' hy hy', Outcome.ok_bind]
      dsimp only
      rw [hput]
      rfl
    · rw [hpos]
    · exact hfilled'
  obtain ⟨⟨d, pos⟩, hrun, hpos, hfilled⟩ := exists_foldlM_rows
    (fun k (s : Destination α × Int) => s.2 = k ∧ Filled values elems s.2.toNat s.1)
    hwidth hheight hpixel (s := ((⟨elems, []⟩ : Destination α), (0 : Int)))
    ⟨rfl, filled_start values elems⟩
  dsimp only at hpos hfilled
  rw [hpos, ← hlength, Int.toNat_natCast] at hfilled
  refine ⟨d, ?_, ?_, ?_⟩
  · unfold fillRectangle
    rw [hrun]
    rfl
  · rw [hfilled.written, hlength]
  · rw [hfilled.elems, List.take_length, ← hlength, Int.toNat_natCast]

end Filling

/-! ## The value of a pixel -/

section Paths

variable {T : Type} [Field T] [LinearOrder T] [FloorRing T]

/-- A rectangle of a raster. -/
structure InRaster (raster rect : Rectangle) : Prop where
  x_nonneg : 0 ≤ rect.x
  y_nonneg : 0 ≤ rect.y
  width_nonneg : 0 ≤ rect.width
  height_nonneg : 0 ≤ rect.height
  right_le : rect.x + rect.width ≤ raster.width
  bottom_le : rect.y + rect.height ≤ raster.height

/-- A pixel of a rectangle. -/
structure Rectangle.HasPixel (rect : Rectangle) (x y : Int) : Prop where
  left_le : rect.x ≤ x
  lt_right : x < rect.x + rect.width
  top_le : rect.y ≤ y
  lt_bottom : y < rect.y + rect.height

/-- A pixel has an index in the raster, by a distance of lines that is not larger than the
raster's. -/
theorem InRaster.index_bounds {raster rect : Rectangle} (h : InRaster raster rect)
    {x y stride : Int} (hpixel : rect.HasPixel x y) (hstride : 0 ≤ stride)
    (hle : stride ≤ raster.width) :
    0 ≤ y * stride + x ∧ y * stride + x < raster.width * raster.height := by
  have hx := h.x_nonneg
  have hy := h.y_nonneg
  have hright := h.right_le
  have hbottom := h.bottom_le
  have hx' := hpixel.left_le
  have hxlt := hpixel.lt_right
  have hy' := hpixel.top_le
  have hylt := hpixel.lt_bottom
  have hindex : 0 ≤ y * stride := Int.mul_nonneg (by omega) hstride
  have hmono : y * stride ≤ y * raster.width := Int.mul_le_mul_of_nonneg_left hle (by omega)
  have hrows : (y + 1) * raster.width ≤ raster.height * raster.width :=
    Int.mul_le_mul_of_nonneg_right (by omega) (by omega)
  rw [Int.add_mul, Int.one_mul, Int.mul_comm raster.height] at hrows
  omega

namespace TiePointGrid

/-- The value that a grid has at a pixel. -/
def pixelValue (grid : TiePointGrid T) (x y : Int) : T :=
  cellValue (fun a => cellValue (grid.node a) (grid.y.cell (y + 1 / 2)) (grid.y.index (y + 1 / 2)))
    (grid.x.cell (x + 1 / 2)) (grid.x.index (x + 1 / 2))

theorem getPixelDoubleAt_eq (grid : TiePointGrid T) (x y : Int) :
    grid.getPixelDoubleAt x y = .ok (grid.pixelValue x y) :=
  grid.getPixelDouble_eq _ _

/-- The values of a rectangle, row by row. -/
def rectangleValues (grid : TiePointGrid T) (rect : Rectangle) : List T :=
  rowMajor rect.width rect.height fun a b => grid.pixelValue (rect.x + a) (rect.y + b)

/-- All ways to read the pixels of a rectangle give the value of `GetPixelDouble`, and each element
of a destination is written once, row by row. -/
structure PathsAgree (grid : TiePointGrid T) (rect : Rectangle) : Prop where
  getPixelDouble : ∀ x y, rect.HasPixel x y →
    grid.getPixelDoubleAt x y = .ok (grid.pixelValue x y)
  getPixels : ∀ pixels : List T, (pixels = [] ∨ rect.width * rect.height ≤ pixels.length) →
    ∃ d, grid.getPixels rect pixels = .ok d ∧
      d.written = intRange 0 (rect.width * rect.height) ∧
      d.elems = grid.rectangleValues rect ++ pixels.drop (rect.width * rect.height).toNat
  getPixelsFloat : ∀ pixels : List T, (pixels = [] ∨ rect.width * rect.height ≤ pixels.length) →
    ∃ d, grid.getPixelsAs id rect pixels = .ok d ∧
      d.written = intRange 0 (rect.width * rect.height) ∧
      d.elems = grid.rectangleValues rect ++ pixels.drop (rect.width * rect.height).toNat
  getPixelsInt : ∀ pixels : List Int, (pixels = [] ∨ rect.width * rect.height ≤ pixels.length) →
    ∃ d, grid.getPixelsAs stdRound rect pixels = .ok d ∧
      d.written = intRange 0 (rect.width * rect.height) ∧
      d.elems = (grid.rectangleValues rect).map stdRound ++
        pixels.drop (rect.width * rect.height).toNat
  getPixelFloat : ∀ x y, rect.HasPixel x y → grid.getPixelFloat x y = .ok (grid.pixelValue x y)
  getPixelInt : ∀ x y, rect.HasPixel x y →
    grid.getPixelInt x y = .ok (stdRound (grid.pixelValue x y))
  getRasterData : ∀ rasterData, grid.rasterSystem.Reachable rasterData →
    ∃ data rasterData', grid.getRasterData rasterData = .ok (data, rasterData') ∧
      ∀ x y, rect.HasPixel x y →
        vectorAt data (y * grid.raster.width + x) = .ok (grid.pixelValue x y)
  readRasterData : ∀ rasterData, grid.rasterSystem.Reachable rasterData →
    ∀ buffer : List T, (buffer.length : Int) = rect.width * rect.height →
    ∃ d, grid.readRasterData rasterData rect buffer = .ok d ∧
      d.written = intRange 0 (rect.width * rect.height) ∧
      d.elems = grid.rectangleValues rect
  getPixelDoubleImpl : ∀ x y : Int, rect.HasPixel x y →
    Alus.SnapEngine.getPixelDoubleImpl ((x : T) + 1 / 2) ((y : T) + 1 / 2) grid.toDevice =
      .ok (grid.pixelValue x y)

/-- The elements that `GetRasterData` returns: the tie points, if there are as many as pixels. -/
def rasterElems (grid : TiePointGrid T) : List T :=
  if (grid.tiePoints.length : Int) = grid.raster.width * grid.raster.height then grid.tiePoints
  else List.replicate (grid.raster.width * grid.raster.height).toNat 0

/-! ### The paths that agree -/

theorem exists_ensureMinLengthArray {α : Type} [Zero α] {array : List α} {length : Int}
    (h0 : 0 ≤ length) (h : array = [] ∨ length ≤ array.length) :
    ∃ array', ensureMinLengthArray array length = .ok array' ∧ length ≤ array'.length ∧
      array'.drop length.toNat = array.drop length.toNat := by
  unfold ensureMinLengthArray
  by_cases hnil : array = []
  · refine ⟨List.replicate length.toNat 0, ?_, ?_, ?_⟩
    · rw [if_pos hnil, if_pos h0]
    · rw [List.length_replicate]
      omega
    · rw [hnil, List.drop_nil, List.drop_eq_nil_of_le (by rw [List.length_replicate])]
  · have hle := h.resolve_left hnil
    exact ⟨array, by rw [if_neg hnil, if_neg (by omega)], hle, rfl⟩

theorem exists_getPixels (grid : TiePointGrid T) (rect : Rectangle) (hwidth : 0 ≤ rect.width)
    (hheight : 0 ≤ rect.height) {pixels : List T}
    (hpixels : pixels = [] ∨ rect.width * rect.height ≤ pixels.length) :
    ∃ d, grid.getPixels rect pixels = .ok d ∧
      d.written = intRange 0 (rect.width * rect.height) ∧
      d.elems = grid.rectangleValues rect ++ pixels.drop (rect.width * rect.height).toNat := by
  obtain ⟨array, harray, hlength, hdrop⟩ :=
    exists_ensureMinLengthArray (Int.mul_nonneg hwidth hheight) hpixels
  have hindex : ∀ (axis : GridAxis T) (x : Int),
      ((x : T) + (1 / 2 - axis.offset)) / axis.subSampling = axis.index (x + 1 / 2) := by
    intro axis x
    rw [GridAxis.index, add_sub_assoc]
  unfold getPixels
  dsimp only
  rw [harray, Outcome.ok_bind, ← hdrop]
  refine exists_fillRectangle stores_storeIndex rect hwidth hheight (fun x y _ _ _ _ => ?_) hlength
  rw [hindex, hindex]
  exact grid.getPixelDoubleAt_eq x y

theorem exists_getPixelsAs {α : Type} [Zero α] (convert : T → α) (grid : TiePointGrid T)
    (rect : Rectangle) (hwidth : 0 ≤ rect.width) (hheight : 0 ≤ rect.height) {pixels : List α}
    (hpixels : pixels = [] ∨ rect.width * rect.height ≤ pixels.length) :
    ∃ d, grid.getPixelsAs convert rect pixels = .ok d ∧
      d.written = intRange 0 (rect.width * rect.height) ∧
      d.elems = (grid.rectangleValues rect).map convert ++
        pixels.drop (rect.width * rect.height).toNat := by
  obtain ⟨array, harray, hlength, hdrop⟩ :=
    exists_ensureMinLengthArray (Int.mul_nonneg hwidth hheight) hpixels
  obtain ⟨fpixels, hfpixels, -, helems⟩ :=
    grid.exists_getPixels rect hwidth hheight (.inl rfl)
  rw [List.drop_nil, List.append_nil] at helems
  have hcount : ((grid.rectangleValues rect).length : Int) = rect.width * rect.height :=
    length_rowMajor hwidth hheight _
  -- one pass of the loop converts one value
  have hpass : ∀ (i : Int) (d : Destination α), 0 ≤ i → i < fpixels.elems.length →
      Filled ((grid.rectangleValues rect).map convert) array i.toNat d →
      ∃ d', (do
        let value ← vectorAt fpixels.elems i
        d.put storeAt i (convert value)) = .ok d' ∧
          Filled ((grid.rectangleValues rect).map convert) array (i + 1).toNat d' := by
    intro i d hi hi' hd
    obtain ⟨k, rfl⟩ : ∃ k : Nat, i = k := ⟨i.toNat, by omega⟩
    have hk : k < (grid.rectangleValues rect).length := by
      rw [← helems]
      omega
    have hget : ((grid.rectangleValues rect).map convert)[k]? =
        some (convert (grid.rectangleValues rect)[k]) := by
      rw [List.getElem?_map, List.getElem?_eq_getElem hk]
      rfl
    rw [helems, vectorAt_natCast hk, Outcome.ok_bind]
    exact hd.exists_put stores_storeAt hget (by rw [List.length_map]; omega)
  obtain ⟨d, hrun, hd⟩ := exists_foldlM_intRange
    (fun i (d : Destination α) =>
      Filled ((grid.rectangleValues rect).map convert) array i.toNat d)
    (show (0 : Int) ≤ fpixels.elems.length by omega) hpass (filled_start _ array)
  refine ⟨d, ?_, ?_, ?_⟩
  · unfold getPixelsAs
    rw [harray, Outcome.ok_bind, hfpixels, Outcome.ok_bind]
    exact hrun
  · rw [hd.written, Int.toNat_natCast, helems, hcount]
  · rw [hd.elems, Int.toNat_natCast, helems, List.take_of_length_le (by rw [List.length_map]),
      ← hdrop, ← hcount, Int.toNat_natCast]

/-- The device computes what the host computes. -/
theorem getPixelDoubleImpl_eq (grid : TiePointGrid T) (x y : T) :
    Alus.SnapEngine.getPixelDoubleImpl x y grid.toDevice = grid.getPixelDouble x y := by
  obtain ⟨hi, hi_le⟩ := grid.x.cell_mem x
  obtain ⟨hj, hj_le⟩ := grid.y.cell_mem y
  have hread : ∀ a b, 0 ≤ a → a ≤ grid.x.size - 1 → 0 ≤ b → b ≤ grid.y.size - 1 →
      vectorAt grid.tiePoints (a + b * grid.x.size) = .ok (grid.node a b) ∧
        vectorIndex grid.tiePoints (a + b * grid.x.size) = .ok (grid.node a b) := by
    intro a b ha ha_le hb hb_le
    have hat := grid.vectorAt_tiePoints ha (by omega) hb (by omega)
    exact ⟨hat, vectorIndex_eq_ok.mpr (vectorAt_eq_ok.mp hat)⟩
  have h00 := hread (grid.x.cell x) (grid.y.cell y) hi (by omega) hj (by omega)
  have h10 := hread (grid.x.cell x + 1) (grid.y.cell y) (by omega) (by omega) hj (by omega)
  have h01 := hread (grid.x.cell x) (grid.y.cell y + 1) hi (by omega) (by omega) (by omega)
  have h11 := hread (grid.x.cell x + 1) (grid.y.cell y + 1) (by omega) (by omega) (by omega)
    (by omega)
  unfold getPixelDouble interpolate
  show DeviceGrid.interpolate grid.toDevice (grid.x.index x - grid.x.cell x)
    (grid.y.index y - grid.y.cell y) (grid.x.cell x) (grid.y.cell y) = _
  unfold DeviceGrid.interpolate toDevice
  simp only [h00.1, h00.2, h10.1, h10.2, h01.1, h01.2, h11.1, h11.2, Outcome.ok_bind]

/-! ### The raster that is kept -/

variable {grid : TiePointGrid T} {rect : Rectangle}

/-- Nothing is ever stored in the raster that is created. -/
theorem rasterData_of_reachable {rasterData : Option (List T)}
    (h : grid.rasterSystem.Reachable rasterData) : rasterData = none ∨
      rasterData = some (List.replicate (grid.raster.width * grid.raster.height).toNat 0) := by
  refine System.Reachable.invariant (I := fun rasterData => rasterData = none ∨
    rasterData = some (List.replicate (grid.raster.width * grid.raster.height).toNat 0)) h
      (fun s hs => .inl hs) ?_
  intro s s' hs hstep
  obtain ⟨data, hdata⟩ := hstep
  unfold getRasterData at hdata
  dsimp only at hdata
  split at hdata
  · cases hdata
    exact hs
  · split at hdata
    · cases hdata
      exact hs
    · refine Outcome.of_bind_eq_ok hdata fun created hcreated hdata => ?_
      refine Outcome.of_bind_eq_ok hdata fun dropped _ hdata => ?_
      cases hdata
      unfold createCompatibleRasterData at hcreated
      split at hcreated
      · cases hcreated
        exact .inr rfl
      · cases hcreated

theorem exists_getRasterData (hwidth : 0 ≤ grid.raster.width) (hheight : 0 ≤ grid.raster.height)
    {rasterData : Option (List T)} (h : grid.rasterSystem.Reachable rasterData) :
    ∃ rasterData', grid.getRasterData rasterData = .ok (grid.rasterElems, rasterData') := by
  have hsize := Int.mul_nonneg hwidth hheight
  have hcache := rasterData_of_reachable h
  unfold getRasterData rasterElems
  dsimp only
  by_cases hcount : (grid.tiePoints.length : Int) = grid.raster.width * grid.raster.height
  · rw [if_pos hcount, if_pos hcount]
    exact ⟨rasterData, rfl⟩
  · rw [if_neg hcount, if_neg hcount]
    cases hcache with
    | inl hnone =>
      subst hnone
      have hzeros : grid.raster.width * grid.raster.height ≤ (List.replicate
          (grid.raster.width * grid.raster.height).toNat (0 : T)).length := by
        rw [List.length_replicate]
        exact Int.self_le_toNat _
      obtain ⟨d, hd, -⟩ := grid.exists_getPixelsAs id
        ⟨0, 0, grid.raster.width, grid.raster.height⟩ hwidth hheight (.inr hzeros)
      refine ⟨some (List.replicate (grid.raster.width * grid.raster.height).toNat 0), ?_⟩
      dsimp only
      unfold createCompatibleRasterData
      rw [if_pos hsize, Outcome.ok_bind, hd]
      rfl
    | inr hcreated =>
      subst hcreated
      exact ⟨_, rfl⟩

theorem length_rasterElems (grid : TiePointGrid T) (hwidth : 0 ≤ grid.raster.width)
    (hheight : 0 ≤ grid.raster.height) :
    (grid.rasterElems.length : Int) = grid.raster.width * grid.raster.height := by
  unfold rasterElems
  split
  · assumption
  · rw [List.length_replicate]
    exact Int.toNat_of_nonneg (Int.mul_nonneg hwidth hheight)

theorem exists_rasterElem (grid : TiePointGrid T) (h : InRaster grid.raster rect) {x y stride : Int}
    (hpixel : rect.HasPixel x y) (hstride : 0 ≤ stride) (hle : stride ≤ grid.raster.width) :
    ∃ a, vectorAt grid.rasterElems (y * stride + x) = .ok a := by
  have hy := h.y_nonneg
  have hheight := h.height_nonneg
  have hbottom := h.bottom_le
  have hbounds := h.index_bounds hpixel hstride hle
  have hlength := length_rasterElems grid (by omega) (by omega)
  have hlt : (y * stride + x).toNat < grid.rasterElems.length := by omega
  exact ⟨grid.rasterElems[(y * stride + x).toNat],
    vectorAt_eq_ok.mpr ⟨by omega, List.getElem?_eq_getElem hlt⟩⟩

/-- What is read of the raster for the pixels of a rectangle. -/
theorem exists_readRasterData (h : InRaster grid.raster rect) {rasterData : Option (List T)}
    (hreachable : grid.rasterSystem.Reachable rasterData) {buffer : List T}
    (hbuffer : (buffer.length : Int) = rect.width * rect.height) {read : Int → Int → T}
    (hread : ∀ x y, rect.HasPixel x y →
      vectorAt grid.rasterElems (y * rect.width + x) = .ok (read x y)) :
    ∃ d, grid.readRasterData rasterData rect buffer = .ok d ∧
      d.written = intRange 0 (rect.width * rect.height) ∧
      d.elems = rowMajor rect.width rect.height fun a b => read (rect.x + a) (rect.y + b) := by
  have hx := h.x_nonneg
  have hy := h.y_nonneg
  have hright := h.right_le
  have hbottom := h.bottom_le
  have hwidth := h.width_nonneg
  have hheight := h.height_nonneg
  obtain ⟨rasterData', hraster⟩ := exists_getRasterData (by omega) (by omega) hreachable
  have hvalue : ∀ x y, 0 ≤ x → x < 0 + rect.width → 0 ≤ y → y < 0 + rect.height →
      vectorAt grid.rasterElems ((rect.y + y) * rect.width + (rect.x + x)) =
        .ok (read (rect.x + x) (rect.y + y)) := fun x y hx hx' hy hy' =>
    hread _ _ (by constructor <;> omega)
  have hsize : rect.width * rect.height ≤ buffer.length := by omega
  obtain ⟨d, hd, hwritten, helems⟩ := exists_fillRectangle (stores_storeAt (α := T))
    ⟨0, 0, rect.width, rect.height⟩ hwidth hheight
    (g := fun x y => read (rect.x + x) (rect.y + y)) hvalue hsize
  refine ⟨d, ?_, hwritten, ?_⟩
  · unfold readRasterData
    rw [hraster, Outcome.ok_bind]
    exact hd
  · rw [helems, ← hbuffer, Int.toNat_natCast, List.drop_length, List.append_nil]
    simp only [Int.zero_add]

/-- Where the paths agree, a pixel's element of the raster is its value. -/
theorem PathsAgree.rasterElems_eq (hagree : grid.PathsAgree rect) (h : InRaster grid.raster rect)
    {x y : Int} (hpixel : rect.HasPixel x y) :
    vectorAt grid.rasterElems (y * grid.raster.width + x) = .ok (grid.pixelValue x y) := by
  have hx := h.x_nonneg
  have hy := h.y_nonneg
  have hright := h.right_le
  have hbottom := h.bottom_le
  have hwidth := h.width_nonneg
  have hheight := h.height_nonneg
  have hinit : grid.rasterSystem.Reachable none := ⟨none, rfl, .refl none⟩
  obtain ⟨data, rasterData', hdata, hvalues⟩ := hagree.getRasterData none hinit
  obtain ⟨rasterData'', hraster⟩ := exists_getRasterData (by omega) (by omega) hinit
  rw [hraster] at hdata
  cases hdata
  exact hvalues x y hpixel

/-- So is the element that is read in lines of the rectangle. -/
theorem PathsAgree.readElems_eq (hagree : grid.PathsAgree rect) (h : InRaster grid.raster rect)
    {x y : Int} (hpixel : rect.HasPixel x y) :
    vectorAt grid.rasterElems (y * rect.width + x) = .ok (grid.pixelValue x y) := by
  have hx := h.x_nonneg
  have hright := h.right_le
  have hwidth := h.width_nonneg
  have hheight := h.height_nonneg
  have hinit : grid.rasterSystem.Reachable none := ⟨none, rfl, .refl none⟩
  choose! read hread using fun x y (hpixel : rect.HasPixel x y) =>
    exists_rasterElem grid h hpixel hwidth (by omega)
  have hbuffer : ((List.replicate (rect.width * rect.height).toNat (0 : T)).length : Int) =
      rect.width * rect.height := by
    rw [List.length_replicate]
    exact Int.toNat_of_nonneg (Int.mul_nonneg hwidth hheight)
  -- the buffer has the values, and what is read
  obtain ⟨d, hd, -, helems⟩ := hagree.readRasterData none hinit _ hbuffer
  obtain ⟨d', hd', -, helems'⟩ := exists_readRasterData h hinit hbuffer hread
  rw [hd] at hd'
  cases hd'
  rw [helems] at helems'
  have hx' := hpixel.left_le
  have hxlt := hpixel.lt_right
  have hy' := hpixel.top_le
  have hylt := hpixel.lt_bottom
  have hvalue := rowMajor_inj helems' (show 0 ≤ x - rect.x by omega) (by omega)
    (show 0 ≤ y - rect.y by omega) (by omega)
  rw [show rect.x + (x - rect.x) = x by omega, show rect.y + (y - rect.y) = y by omega] at hvalue
  rw [hvalue]
  exact hread x y hpixel

/-- The paths agree where the raster's elements are the values, by the line length of the raster
and by that of the rectangle. -/
theorem pathsAgree_iff (grid : TiePointGrid T) (h : InRaster grid.raster rect) :
    grid.PathsAgree rect ↔
    ∀ x y, rect.HasPixel x y →
      vectorAt grid.rasterElems (y * grid.raster.width + x) = .ok (grid.pixelValue x y) ∧
        vectorAt grid.rasterElems (y * rect.width + x) = .ok (grid.pixelValue x y) := by
  have hx := h.x_nonneg
  have hy := h.y_nonneg
  have hright := h.right_le
  have hbottom := h.bottom_le
  have hwidth := h.width_nonneg
  have hheight := h.height_nonneg
  constructor
  · intro hagree x y hpixel
    exact ⟨hagree.rasterElems_eq h hpixel, hagree.readElems_eq h hpixel⟩
  · intro hvalues
    -- `GetPixels` and the single pixels agree anyway
    refine ⟨fun x y _ => grid.getPixelDoubleAt_eq x y,
      fun pixels hpixels => grid.exists_getPixels rect hwidth hheight hpixels,
      fun pixels hpixels => ?_,
      fun pixels hpixels => grid.exists_getPixelsAs stdRound rect hwidth hheight hpixels,
      fun x y _ => grid.getPixelDoubleAt_eq x y, fun x y _ => ?_, ?_, ?_, fun x y _ => ?_⟩
    · obtain ⟨d, hd, hwritten, helems⟩ := grid.exists_getPixelsAs id rect hwidth hheight hpixels
      rw [List.map_id] at helems
      exact ⟨d, hd, hwritten, helems⟩
    · unfold getPixelInt
      rw [grid.getPixelDoubleAt_eq]
      rfl
    · intro rasterData hreachable
      obtain ⟨rasterData', hraster⟩ := exists_getRasterData (by omega) (by omega) hreachable
      exact ⟨_, rasterData', hraster, fun x y hpixel => (hvalues x y hpixel).1⟩
    · intro rasterData hreachable buffer hbuffer
      exact exists_readRasterData h hreachable hbuffer fun x y hpixel => (hvalues x y hpixel).2
    · rw [getPixelDoubleImpl_eq]
      exact grid.getPixelDoubleAt_eq x y

end TiePointGrid

end Paths

/-! ## Which rectangles have agreeing paths -/

section Geometry

variable {T : Type} [Field T] [LinearOrder T] [FloorRing T]

namespace GridGeometry

/-- The centre of a pixel is a tie point, whose index is that of the pixel in the raster. -/
def OnOwnNode (g : GridGeometry T) (x y : Int) : Prop :=
  ∃ a b : Int, (0 ≤ a ∧ a < g.x.size) ∧ (0 ≤ b ∧ b < g.y.size) ∧
    y * g.raster.width + x = a + b * g.x.size ∧
    g.x.index (x + 1 / 2) = (a : T) ∧ g.y.index (y + 1 / 2) = (b : T)

/-- The tie points are the pixels of a rectangle, which has whole lines of the raster or lies in
its first one; or there are no pixels. -/
def TiePointsArePixels (g : GridGeometry T) (rect : Rectangle) : Prop :=
  (rect.width = 0 ∨ rect.height = 0) ∨
    (g.x.size * g.y.size = g.raster.width * g.raster.height ∧
      (rect.width = g.raster.width ∨ rect.y + rect.height ≤ 1) ∧
      ∀ x y, rect.HasPixel x y → g.OnOwnNode x y)

/-- The grid with these values at its tie points. -/
def withValues (g : GridGeometry T) (f : Int → Int → T) : TiePointGrid T where
  toGridGeometry := g
  tiePoints := rowMajor g.x.size g.y.size f
  length_tiePoints := g.length_image f

variable {g : GridGeometry T} {rect : Rectangle}

omit [FloorRing T] in
theorem vectorAt_withValues (f : Int → Int → T) {a b : Int} (ha : 0 ≤ a) (ha' : a < g.x.size)
    (hb : 0 ≤ b) (hb' : b < g.y.size) :
    vectorAt (rowMajor g.x.size g.y.size f) (a + b * g.x.size) = .ok (f a b) := by
  have hread := vectorIndex_rowMajor ha ha' hb hb' f
  rw [Int.mul_comm, Int.add_comm] at hread
  exact vectorAt_eq_ok.mpr (vectorIndex_eq_ok.mp hread)

omit [FloorRing T] in
theorem node_withValues (f : Int → Int → T) {a b : Int} (ha : 0 ≤ a) (ha' : a < g.x.size)
    (hb : 0 ≤ b) (hb' : b < g.y.size) : (g.withValues f).node a b = f a b := by
  have hnode := (g.withValues f).vectorAt_tiePoints ha ha' hb hb'
  rw [show (g.withValues f).tiePoints = rowMajor g.x.size g.y.size f from rfl,
    show (g.withValues f).x = g.x from rfl, vectorAt_withValues f ha ha' hb hb'] at hnode
  exact (Outcome.ok.inj hnode).symm

/-- The value at a pixel of such a grid. -/
theorem pixelValue_withValues (f : Int → Int → T) (x y : Int) :
    (g.withValues f).pixelValue x y =
      cellValue (fun a => cellValue (f a) (g.y.cell (y + 1 / 2)) (g.y.index (y + 1 / 2)))
        (g.x.cell (x + 1 / 2)) (g.x.index (x + 1 / 2)) := by
  obtain ⟨hi, hi_le⟩ := g.x.cell_mem (x + 1 / 2)
  obtain ⟨hj, hj_le⟩ := g.y.cell_mem (y + 1 / 2)
  have hcolumn : ∀ a, 0 ≤ a → a < g.x.size →
      cellValue ((g.withValues f).node a) (g.y.cell (y + 1 / 2)) (g.y.index (y + 1 / 2)) =
        cellValue (f a) (g.y.cell (y + 1 / 2)) (g.y.index (y + 1 / 2)) := fun a ha ha' =>
    cellValue_congr (node_withValues f ha ha' hj (by omega))
      (node_withValues f ha ha' (by omega) (by omega)) _
  exact cellValue_congr (hcolumn (g.x.cell (x + 1 / 2)) hi (by omega))
    (hcolumn (g.x.cell (x + 1 / 2) + 1) (by omega) (by omega)) _

/-- A cell whose weights are those of one node has its position there. -/
theorem eq_of_weight_one {m i : Int} {t : T}
    (h : cellValue (fun n => if n = m then (1 : T) else 0) i t = 1) : t = m := by
  rw [cellValue_indicator] at h
  split_ifs at h with hfirst hsecond
  · subst hfirst
    linear_combination -h
  · rw [← hsecond]
    push_cast
    linear_combination h
  · exact absurd h zero_ne_one

/-- What all grids of a geometry must have at a pixel whose element of the raster is its value. -/
theorem onOwnNode_of_read {x y index : Int}
    (hcount : g.x.size * g.y.size = g.raster.width * g.raster.height)
    (hindex : 0 ≤ index) (hlt : index < g.raster.width * g.raster.height)
    (hread : ∀ f, vectorAt (rowMajor g.x.size g.y.size f) index =
      .ok ((g.withValues f).pixelValue x y)) :
    ∃ a b : Int, (0 ≤ a ∧ a < g.x.size) ∧ (0 ≤ b ∧ b < g.y.size) ∧ index = a + b * g.x.size ∧
      g.x.index (x + 1 / 2) = (a : T) ∧ g.y.index (y + 1 / 2) = (b : T) := by
  have hw := g.x.two_le_size
  have hposition : index = index % g.x.size + index / g.x.size * g.x.size := by
    rw [Int.mul_comm]
    exact (Int.emod_add_mul_ediv _ _).symm
  have ha := Int.emod_nonneg index (show g.x.size ≠ 0 by omega)
  have ha' := Int.emod_lt_of_pos index (show 0 < g.x.size by omega)
  have hb : 0 ≤ index / g.x.size := Int.ediv_nonneg hindex (by omega)
  have hb' : index / g.x.size < g.y.size := by
    apply Int.ediv_lt_of_lt_mul (by omega)
    rw [Int.mul_comm, hcount]
    exact hlt
  -- the pixel has the value of this node in every raster
  have hvalue : ∀ f : Int → Int → T, f (index % g.x.size) (index / g.x.size) =
      (g.withValues f).pixelValue x y := by
    intro f
    have hat := hread f
    rw [hposition, vectorAt_withValues f ha ha' hb hb'] at hat
    exact Outcome.ok.inj hat
  refine ⟨index % g.x.size, index / g.x.size, ⟨ha, ha'⟩, ⟨hb, hb'⟩, hposition, ?_, ?_⟩
  -- and so in the one that tells its column from the others
  · have hcolumn := hvalue fun a _ => if a = index % g.x.size then 1 else 0
    rw [pixelValue_withValues, if_pos rfl] at hcolumn
    simp only [cellValue_const] at hcolumn
    exact eq_of_weight_one hcolumn.symm
  · have hrow := hvalue fun _ b => if b = index / g.x.size then 1 else 0
    rw [pixelValue_withValues, if_pos rfl, cellValue_const] at hrow
    exact eq_of_weight_one hrow.symm

/-- A raster that is created has no value of a grid that is one everywhere. -/
theorem rasterElems_ne_one (h : InRaster g.raster rect) (hpixels : 0 < rect.width ∧ 0 < rect.height)
    (hcount : g.x.size * g.y.size ≠ g.raster.width * g.raster.height) :
    ¬ (g.withValues fun _ _ => 1).PathsAgree rect := by
  intro hagree
  have hfirst := (((g.withValues fun _ _ => 1).pathsAgree_iff h).mp hagree
    rect.x rect.y ⟨le_refl _, by omega, le_refl _, by omega⟩).1
  have helems : (g.withValues fun _ _ => 1).rasterElems =
      List.replicate (g.raster.width * g.raster.height).toNat 0 :=
    if_neg fun heq => hcount ((g.withValues fun _ _ => 1).length_tiePoints.symm.trans heq)
  rw [helems, pixelValue_withValues] at hfirst
  simp only [cellValue_const] at hfirst
  have hmem := List.mem_of_getElem? (vectorAt_eq_ok.mp hfirst).2
  exact one_ne_zero (List.eq_of_mem_replicate hmem)

variable [IsStrictOrderedRing T]

/-- At a position that is a node, the cell's value is that of the node. -/
theorem cellValue_of_node (axis : GridAxis T) (f : Int → T) {x : T} {a : Int} (ha : 0 ≤ a)
    (ha' : a < axis.size) (hindex : axis.index x = (a : T)) :
    cellValue f (axis.cell x) (axis.index x) = f a := by
  have hsize := axis.two_le_size
  have hcell : axis.cell x = clampTo 0 (axis.size - 2) a := by
    unfold GridAxis.cell floorAndCrop
    rw [hindex, Int.floor_intCast]
  rw [hcell, hindex]
  by_cases hlast : a ≤ axis.size - 2
  · rw [clampTo_of_mem ha hlast, cellValue_self]
  · have hclamp : clampTo 0 (axis.size - 2) a = a - 1 := by
      unfold clampTo
      split_ifs <;> omega
    have hnext := cellValue_next f (a - 1)
    rw [show a - 1 + 1 = a by omega] at hnext
    rw [hclamp, hnext]

omit [IsStrictOrderedRing T] in
/-- All grids of a geometry have agreeing paths only where the tie points are the pixels. -/
theorem tiePointsArePixels_of_pathsAgree (h : InRaster g.raster rect)
    (hagree : ∀ grid : TiePointGrid T, grid.toGridGeometry = g → grid.PathsAgree rect) :
    g.TiePointsArePixels rect := by
  have hx := h.x_nonneg
  have hy := h.y_nonneg
  have hright := h.right_le
  have hbottom := h.bottom_le
  have hwidth := h.width_nonneg
  have hheight := h.height_nonneg
  unfold TiePointsArePixels
  by_cases hempty : rect.width = 0 ∨ rect.height = 0
  · exact .inl hempty
  refine .inr ?_
  have hcount : g.x.size * g.y.size = g.raster.width * g.raster.height := by
    by_contra hne
    exact rasterElems_ne_one h (by omega) hne (hagree _ rfl)
  have hread : ∀ (f : Int → Int → T) (x y : Int), rect.HasPixel x y →
      vectorAt (rowMajor g.x.size g.y.size f) (y * g.raster.width + x) =
          .ok ((g.withValues f).pixelValue x y) ∧
        vectorAt (rowMajor g.x.size g.y.size f) (y * rect.width + x) =
          .ok ((g.withValues f).pixelValue x y) := by
    intro f x y hpixel
    have helems : (g.withValues f).rasterElems = rowMajor g.x.size g.y.size f :=
      if_pos ((g.withValues f).length_tiePoints.trans hcount)
    rw [← helems]
    exact ((g.withValues f).pathsAgree_iff h).mp
      (hagree (g.withValues f) rfl) x y hpixel
  refine ⟨hcount, ?_, fun x y hpixel => ?_⟩
  -- the last line of the rectangle is read in its place, as the nodes that both indices have
  · have hpixel : rect.HasPixel rect.x (rect.y + rect.height - 1) :=
      ⟨le_refl _, by omega, by omega, by omega⟩
    have hown := h.index_bounds hpixel (show 0 ≤ g.raster.width by omega) (le_refl _)
    have hother := h.index_bounds hpixel hwidth (by omega)
    obtain ⟨a, b, ha, hb, hab, hxa, hyb⟩ := onOwnNode_of_read hcount hown.1 hown.2
      fun f => (hread f _ _ hpixel).1
    obtain ⟨a', b', ha', hb', hab', hxa', hyb'⟩ := onOwnNode_of_read hcount hother.1 hother.2
      fun f => (hread f _ _ hpixel).2
    have haa : a = a' := by exact_mod_cast hxa.symm.trans hxa'
    have hbb : b = b' := by exact_mod_cast hyb.symm.trans hyb'
    have hsame : (rect.y + rect.height - 1) * (g.raster.width - rect.width) = 0 := by
      rw [haa, hbb, ← hab'] at hab
      rw [Int.mul_sub]
      omega
    cases Int.mul_eq_zero.mp hsame with
    | inl hfirst => exact .inr (by omega)
    | inr hwhole => exact .inl (by omega)
  · have hown := h.index_bounds hpixel (show 0 ≤ g.raster.width by omega) (le_refl _)
    exact onOwnNode_of_read hcount hown.1 hown.2 fun f => (hread f _ _ hpixel).1

/-- Where the tie points are the pixels, the paths agree. -/
theorem pathsAgree_of_tiePointsArePixels {grid : TiePointGrid T} (h : InRaster grid.raster rect)
    (hpixels : grid.TiePointsArePixels rect) : grid.PathsAgree rect := by
  have hy := h.y_nonneg
  rw [TiePointGrid.pathsAgree_iff _ h]
  intro x y hpixel
  have hxlt := hpixel.lt_right
  have hx' := hpixel.left_le
  have hylt := hpixel.lt_bottom
  have hy' := hpixel.top_le
  obtain ⟨hcount, hlines, hnodes⟩ := hpixels.resolve_left (by omega)
  obtain ⟨a, b, ha, hb, hindex, hxa, hyb⟩ := hnodes x y hpixel
  have helems : grid.rasterElems = grid.tiePoints :=
    if_pos (grid.length_tiePoints.trans hcount)
  have hvalue : grid.pixelValue x y = grid.node a b := by
    unfold TiePointGrid.pixelValue
    rw [cellValue_of_node grid.x _ ha.1 ha.2 hxa, cellValue_of_node grid.y _ hb.1 hb.2 hyb]
  have hsame : y * rect.width + x = y * grid.raster.width + x := by
    cases hlines with
    | inl hwhole => rw [hwhole]
    | inr hfirst =>
      have hzero : y = 0 := by omega
      rw [hzero, Int.zero_mul, Int.zero_mul]
  have hread := grid.vectorAt_tiePoints ha.1 ha.2 hb.1 hb.2
  rw [hsame, helems, hindex, hread, hvalue]
  exact ⟨rfl, rfl⟩

end GridGeometry

/-- The paths of all grids of a geometry agree on a rectangle where its pixels are the tie points
of the same indices; those of one grid where the elements of the raster are the values. -/
theorem accessPaths_agree_iff [IsStrictOrderedRing T] (g : GridGeometry T)
    (rect : { rect : Rectangle // InRaster g.raster rect }) :
    ((∀ grid : TiePointGrid T, grid.toGridGeometry = g → grid.PathsAgree rect.val) ↔
      g.TiePointsArePixels rect.val) ∧
    ∀ grid : TiePointGrid T, grid.toGridGeometry = g → (grid.PathsAgree rect.val ↔
      ∀ x y, rect.val.HasPixel x y →
        vectorAt grid.rasterElems (y * grid.raster.width + x) = .ok (grid.pixelValue x y) ∧
          vectorAt grid.rasterElems (y * rect.val.width + x) = .ok (grid.pixelValue x y)) := by
  refine ⟨⟨GridGeometry.tiePointsArePixels_of_pathsAgree rect.property, ?_⟩, ?_⟩
  · rintro hpixels grid rfl
    exact GridGeometry.pathsAgree_of_tiePointsArePixels rect.property hpixels
  · rintro grid rfl
    exact TiePointGrid.pathsAgree_iff _ rect.property

end Geometry

/-- Two by two tie points, two pixels apart. -/
def twoPixelsApart : GridGeometry ℚ where
  name := "elevation"
  x := ⟨2, 1 / 2, 2, twoPoints_le, by decide⟩
  y := ⟨2, 1 / 2, 2, twoPoints_le, by decide⟩
  sceneRaster := none

/-- The first pixel of their raster is zero, whatever the tie points are. -/
theorem twoPixelsApart_not_agree :
    ¬ (twoPixelsApart.withValues fun _ _ => 1).PathsAgree ⟨0, 0, 1, 1⟩ :=
  GridGeometry.rasterElems_ne_one ⟨by decide, by decide, by decide, by decide, by decide +kernel,
    by decide +kernel⟩ (by decide) (by decide +kernel)

/-- A single pixel of it. -/
theorem twoPixelsApart_agree_iff :
    (∀ grid : TiePointGrid ℚ, grid.toGridGeometry = twoPixelsApart →
      grid.PathsAgree ⟨0, 0, 1, 1⟩) ↔ twoPixelsApart.TiePointsArePixels ⟨0, 0, 1, 1⟩ :=
  (accessPaths_agree_iff twoPixelsApart ⟨⟨0, 0, 1, 1⟩, by decide, by decide, by decide, by decide,
    by decide +kernel, by decide +kernel⟩).1

end Alus.SnapEngine
