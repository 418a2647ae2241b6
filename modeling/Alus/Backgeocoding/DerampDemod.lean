import Mathlib.Tactic.LinearCombination
import Alus.Backgeocoding.SlaveRectangle
import Alus.Lib.Kernel

/-!
# Deramping and reramping

`CoreCompute` (`backgeocoding.cc`) launches two kernels. `DerampDemod` (`deramp_demod.cu`) turns
each sample of the slave rectangle by the deramp phase of its place in the burst, and
`BilinearInterpolation` (`bilinear.cu`) resamples the turned samples and their phase at the slave
position of each output pixel and turns them back by the resampled phase.

Numbers are exact, while the indices are those of an `int`. A thread computes its index before it
knows that it lies outside of the image. `sincos` is a parameter.
-/

namespace Alus.Backgeocoding

open Alus.Lib

/-! ## The launches -/

/-- `block_size` of both launches. -/
def blockSize : Dim3 := ⟨24, 24⟩

/-- `GetGridDim`. -/
def getGridDim (blockDim dataDim : Int) : Outcome Int := do
  let sum ← int32 (dataDim + blockDim)
  let sum ← int32 (sum - 1)
  return sum.tdiv blockDim

/-- `grid_size` of both launches. -/
def gridSize (width height : Int) : Outcome Dim3 := do
  let x ← getGridDim blockSize.x width
  let y ← getGridDim blockSize.y height
  return ⟨x.toNat, y.toNat⟩

/-- The launch of a kernel over an image of this size. An error of the launch is checked by the
caller, `CHECK_CUDA_ERR`. -/
def launchOver {α : Type} (s : Scheduler) (width height : Int)
    (kernel : Nat → Nat → Outcome (Option (Nat × α))) (memory : Nat → α) : Outcome (Nat → α) := do
  let grid ← gridSize width height
  let memory ← launchStores s grid blockSize kernel memory
  Outcome.require grid.Valid
  return memory

section Model

variable {T : Type}

/-- A device array of this size. -/
def deviceArray {α : Type} (size : Nat) (memory : Nat → α) : List α := (List.range size).map memory

/-- What `DerampDemod` reads of `DeviceSubswathInfo`. -/
structure DeviceSubswathInfo (T : Type) where
  linesPerBurst : Int
  azimuthTimeInterval : T
  dopplerSizeY : Int
  deviceDopplerRate : List T
  deviceReferenceTime : List T
  deviceDopplerCentroid : List T

/-- What a thread stores in `demod_phase`, `demod_i` and `demod_q`, all at the same index. -/
structure DemodSample (T : Type) where
  phase : T
  i : T
  q : T

variable [Field T]

/-- `value_phase`. -/
def valuePhase (pi ta kt referenceTime dopplerCentroid : T) : T :=
  let deramp := -pi * kt * (ta - referenceTime) ^ 2
  let demod := -(2 * pi) * dopplerCentroid * ta
  deramp + demod

/-- A sample turned by the phase. -/
def turn (sincos : T → T × T) (phase valueI valueQ : T) : DemodSample T :=
  let (sinPhase, cosPhase) := sincos phase
  ⟨phase, valueI * cosPhase - valueQ * sinPhase, valueI * sinPhase + valueQ * cosPhase⟩

/-- `DerampDemod` on one thread. -/
def derampDemod (pi : T) (sincos : T → T × T) (rectangle : Rectangle) (slaveI slaveQ : List Int16)
    (subSwath : DeviceSubswathInfo T) (sBurstIndex : Int) (idx idy : Nat) :
    Outcome (Option (Nat × DemodSample T)) := do
  let rowIndex ← int32 (rectangle.width * idy)
  let globalIndex ← int32 (rowIndex + idx)
  let firstLineInBurst ← int32 (sBurstIndex * subSwath.linesPerBurst)
  let y ← int32 (rectangle.y + idy)
  let x ← int32 (rectangle.x + idx)
  if idx ≥ rectangle.width ∨ idy ≥ rectangle.height then return none
  else do
    let line ← int32 (y - firstLineInBurst)
    let ta := (line : T) * subSwath.azimuthTimeInterval
    let burstRow ← int32 (sBurstIndex * subSwath.dopplerSizeY)
    let place ← int32 (burstRow + x)
    let kt ← vectorIndex subSwath.deviceDopplerRate place
    let referenceTime ← vectorIndex subSwath.deviceReferenceTime place
    let dopplerCentroid ← vectorIndex subSwath.deviceDopplerCentroid place
    let phase := valuePhase pi ta kt referenceTime dopplerCentroid
    let valueI ← vectorIndex slaveI globalIndex
    let valueQ ← vectorIndex slaveQ globalIndex
    return some (globalIndex.toNat, turn sincos phase valueI.toInt valueQ.toInt)

variable [LinearOrder T] [FloorRing T]

/-- `BilinearInterpolation` on one thread. -/
def bilinearThread (sincos : T → T × T) (params : BilinearParams T) (pointWidth pointHeight : Int)
    (xPixels yPixels demodPhase demodI demodQ : List T) (idx idy : Nat) :
    Outcome (Option (Nat × T × T)) := do
  let rowIndex ← int32 (idy * pointWidth)
  let threadDataIndex ← int32 (rowIndex + idx)
  if idx ≥ pointWidth ∨ idy ≥ pointHeight then return none
  else do
    let x ← vectorIndex xPixels threadDataIndex
    let y ← vectorIndex yPixels threadDataIndex
    let result ← bilinearInterpolation sincos params demodPhase demodI demodQ x y
    return some (threadDataIndex.toNat, result)

/-! ## `CoreCompute` -/

/-- `CoreComputeParams`, without the arrays that the kernels fill. -/
structure CoreComputeParams (T : Type) where
  slaveRectangle : Rectangle
  sBurstIndex : Int
  targetArea : Rectangle
  demodSize : Nat
  deviceSlaveI : List Int16
  deviceSlaveQ : List Int16
  deviceXPoints : List T
  deviceYPoints : List T

/-- `CoreCompute`: the arrays of results, from what the device memory held before. -/
def CoreComputeParams.coreCompute (params : CoreComputeParams T) (s : Scheduler) (pi : T)
    (sincos : T → T × T) (subSwath : DeviceSubswathInfo T) (disableReramp : Bool)
    (demod : Nat → DemodSample T) (results : Nat → T × T) : Outcome (Nat → T × T) := do
  let slave := params.slaveRectangle
  let demod ← launchOver s slave.width slave.height
    (derampDemod pi sincos slave params.deviceSlaveI params.deviceSlaveQ subSwath
      params.sBurstIndex) demod
  let subswathStart ← int32 (subSwath.linesPerBurst * params.sBurstIndex)
  let nextBurst ← int32 (params.sBurstIndex + 1)
  let subswathEnd ← int32 (subSwath.linesPerBurst * nextBurst)
  let bilinearParams : BilinearParams T :=
    { demodWidth := slave.width
      demodHeight := slave.height
      rectangleX := slave.x
      rectangleY := slave.y
      subswathStart, subswathEnd
      noDataValue := 0
      disableReramp }
  launchOver s params.targetArea.width params.targetArea.height
    (bilinearThread sincos bilinearParams params.targetArea.width params.targetArea.height
      params.deviceXPoints params.deviceYPoints
      (deviceArray params.demodSize fun k => (demod k).phase)
      (deviceArray params.demodSize fun k => (demod k).i)
      (deviceArray params.demodSize fun k => (demod k).q)) results

end Model

/-! ## The tiles -/

/-- A slave rectangle inside its burst, and the output pixels that are resampled from it. The
tables of the sub-swath have as many elements as an `int` counts. -/
structure Tile where
  swath : SlaveSubSwath
  sBurstIndex : Int
  slaveRectangle : Rectangle
  targetArea : Rectangle
  burst : 0 ≤ sBurstIndex ∧ sBurstIndex < swath.numOfBursts
  slave_pos : 0 < slaveRectangle.width ∧ 0 < slaveRectangle.height
  target_pos : 0 < targetArea.width ∧ 0 < targetArea.height
  columns : 0 ≤ slaveRectangle.x ∧
    slaveRectangle.x + slaveRectangle.width ≤ swath.samplesPerBurst
  lines : sBurstIndex * swath.linesPerBurst ≤ slaveRectangle.y ∧
    slaveRectangle.y + slaveRectangle.height ≤
      sBurstIndex * swath.linesPerBurst + swath.linesPerBurst
  tables_fit : swath.numOfBursts * swath.samplesPerBurst ≤ intMax

/-- The samples by column and row of the slave raster, and the tables by burst and column. -/
structure SlaveProduct (T : Type) where
  i : Int → Int → Int16
  q : Int → Int → Int16
  azimuthTimeInterval : T
  dopplerRate : Int → Int → T
  referenceTime : Int → Int → T
  dopplerCentroid : Int → Int → T

namespace Tile

variable {T : Type} (tile : Tile) (product : SlaveProduct T)

/-- A table, which `HostToDevice` copies burst by burst. -/
def deviceTable (table : Int → Int → T) : List T :=
  rowMajor tile.swath.samplesPerBurst tile.swath.numOfBursts fun x burst => table burst x

/-- `device_subswath_info_`. -/
def subSwath : DeviceSubswathInfo T where
  linesPerBurst := tile.swath.linesPerBurst
  azimuthTimeInterval := product.azimuthTimeInterval
  dopplerSizeY := tile.swath.samplesPerBurst
  deviceDopplerRate := tile.deviceTable product.dopplerRate
  deviceReferenceTime := tile.deviceTable product.referenceTime
  deviceDopplerCentroid := tile.deviceTable product.dopplerCentroid

/-- The samples of the rectangle, which the worker reads row by row. -/
def slaveTile (samples : Int → Int → Int16) : List Int16 :=
  rowMajor tile.slaveRectangle.width tile.slaveRectangle.height
    fun x y => samples (tile.slaveRectangle.x + x) (tile.slaveRectangle.y + y)

/-- What the worker hands over, with the slave position of each output pixel. -/
def params (positions : Int → Int → T × T) : CoreComputeParams T where
  slaveRectangle := tile.slaveRectangle
  sBurstIndex := tile.sBurstIndex
  targetArea := tile.targetArea
  demodSize := (tile.slaveRectangle.width * tile.slaveRectangle.height).toNat
  deviceSlaveI := tile.slaveTile product.i
  deviceSlaveQ := tile.slaveTile product.q
  deviceXPoints :=
    rowMajor tile.targetArea.width tile.targetArea.height fun px py => (positions px py).1
  deviceYPoints :=
    rowMajor tile.targetArea.width tile.targetArea.height fun px py => (positions px py).2

variable [Field T] (pi : T) (sincos : T → T × T)

/-- The deramp phase at a place of the burst. -/
def phase (x y : Int) : T :=
  valuePhase pi
    (((y - tile.sBurstIndex * tile.swath.linesPerBurst : Int) : T) * product.azimuthTimeInterval)
    (product.dopplerRate tile.sBurstIndex x) (product.referenceTime tile.sBurstIndex x)
    (product.dopplerCentroid tile.sBurstIndex x)

/-- The deramped sample at a place of the slave raster. -/
def deramped (x y : Int) : DemodSample T :=
  turn sincos (tile.phase product pi x y) (product.i x y).toInt (product.q x y).toInt

variable [LinearOrder T] [FloorRing T]

variable (T) in
/-- Whatever the samples and tables are, and wherever the positions of the other output pixels lie:
a pixel at a place of the grid has the sample of this place, or its deramped sample. -/
def RestoresSamples : Prop :=
  ∀ (s : Scheduler) (product : SlaveProduct T) (positions : Int → Int → T × T) (pi : T)
    (sincos : T → T × T) (disableReramp : Bool) (demod : Nat → DemodSample T)
    (results : Nat → T × T),
    (∀ phase, (sincos phase).1 ^ 2 + (sincos phase).2 ^ 2 = 1) →
      ∃ results', (tile.params product positions).coreCompute s pi sincos (tile.subSwath product)
          disableReramp demod results = .ok results' ∧
        ∀ px py x y : Int, 0 ≤ px → px < tile.targetArea.width → 0 ≤ py →
          py < tile.targetArea.height → positions px py = ((x : T), (y : T)) →
          tile.slaveRectangle.Contains x y →
            results' (py * tile.targetArea.width + px).toNat =
              if disableReramp then
                ((tile.deramped product pi sincos x y).i, (tile.deramped product pi sincos x y).q)
              else (((product.i x y).toInt : T), ((product.q x y).toInt : T))

end Tile

/-- The position of the last thread of the blocks that cover so many pixels. -/
def lastThread (n : Int) : Int := (n + 23) / 24 * 24 - 1

/-- The device takes the grid, and each of its threads has an index that an `int` holds. -/
structure LaunchFits (width height : Int) : Prop where
  columns : width + 24 ≤ intMax
  rows : height ≤ 1572840
  index : width * lastThread height + lastThread width ≤ intMax

/-- Both launches fit, and the threads of the first have a place that an `int` holds. -/
structure Tile.Fits (tile : Tile) : Prop where
  slave : LaunchFits tile.slaveRectangle.width tile.slaveRectangle.height
  right : tile.slaveRectangle.x + lastThread tile.slaveRectangle.width ≤ intMax
  lower : tile.slaveRectangle.y + lastThread tile.slaveRectangle.height ≤ intMax
  target : LaunchFits tile.targetArea.width tile.targetArea.height

/-! ## The grids -/

/-- The blocks that cover an image of this size. -/
def coveringGrid (width height : Int) : Dim3 :=
  ⟨((width + 23) / 24).toNat, ((height + 23) / 24).toNat⟩

theorem getGridDim_eq_ok {n g : Int} (hn : 0 < n) :
    getGridDim 24 n = .ok g ↔ n + 24 ≤ intMax ∧ g = (n + 23) / 24 := by
  have hdiv : (n + 24 - 1).tdiv 24 = (n + 23) / 24 := by
    rw [Int.tdiv_eq_ediv_of_nonneg (by omega), show n + 24 - 1 = n + 23 by omega]
  simp only [getGridDim, Outcome.bind_eq_ok, int32_eq_ok, fits32_iff, Outcome.pure_eq,
    Outcome.ok.injEq, intMax]
  constructor
  · rintro ⟨_, ⟨hsum, rfl⟩, _, ⟨_, rfl⟩, rfl⟩
    exact ⟨by omega, hdiv⟩
  · rintro ⟨hsum, rfl⟩
    exact ⟨n + 24, ⟨by omega, rfl⟩, n + 24 - 1, ⟨by omega, rfl⟩, hdiv⟩

theorem gridSize_eq_ok {width height : Int} {grid : Dim3} (hw : 0 < width) (hh : 0 < height) :
    gridSize width height = .ok grid ↔
      (width + 24 ≤ intMax ∧ height + 24 ≤ intMax) ∧ grid = coveringGrid width height := by
  show (getGridDim 24 width >>= fun x => getGridDim 24 height >>= fun y =>
    (.ok ⟨x.toNat, y.toNat⟩ : Outcome Dim3)) = .ok grid ↔ _
  simp only [Outcome.bind_eq_ok, getGridDim_eq_ok hw, getGridDim_eq_ok hh, Outcome.ok.injEq,
    coveringGrid]
  constructor
  · rintro ⟨_, ⟨hcolumns, rfl⟩, _, ⟨hrows, rfl⟩, rfl⟩
    exact ⟨⟨hcolumns, hrows⟩, rfl⟩
  · rintro ⟨⟨hcolumns, hrows⟩, rfl⟩
    exact ⟨_, ⟨hcolumns, rfl⟩, _, ⟨hrows, rfl⟩, rfl⟩

/-- The grid is one the device takes as long as there are not too many rows of blocks. -/
theorem coveringGrid_valid {width height : Int} (hw : 0 < width) (hh : 0 < height)
    (hcolumns : width + 24 ≤ intMax) :
    (coveringGrid width height).Valid ↔ height ≤ 1572840 := by
  show (0 < ((width + 23) / 24).toNat ∧ ((width + 23) / 24).toNat ≤ 2147483647) ∧
    0 < ((height + 23) / 24).toNat ∧ ((height + 23) / 24).toNat ≤ 65535 ↔ _
  rw [intMax] at hcolumns
  omega

section Cover

variable {width height : Int}

theorem lt_columns_iff (x : Nat) :
    x < (coveringGrid width height).x * blockSize.x ↔ (x : Int) ≤ lastThread width := by
  show x < ((width + 23) / 24).toNat * 24 ↔ (x : Int) ≤ (width + 23) / 24 * 24 - 1
  omega

theorem lt_rows_iff (y : Nat) :
    y < (coveringGrid width height).y * blockSize.y ↔ (y : Int) ≤ lastThread height := by
  show y < ((height + 23) / 24).toNat * 24 ↔ (y : Int) ≤ (height + 23) / 24 * 24 - 1
  omega

theorem le_lastThread {n k : Int} (h : k < n) : k ≤ lastThread n := by
  unfold lastThread
  omega

theorem toNat_lastThread {n : Int} (h : 0 < n) : ((lastThread n).toNat : Int) = lastThread n :=
  Int.toNat_of_nonneg (le_lastThread h)

/-- The index of every thread fits when that of the last one does. -/
theorem LaunchFits.index_le (h : LaunchFits width height) (hw : 0 < width) {x y : Nat}
    (hx : (x : Int) ≤ lastThread width) (hy : (y : Int) ≤ lastThread height) :
    0 ≤ width * y ∧ width * y + x ≤ intMax := by
  have hrow : width * y ≤ width * lastThread height := Int.mul_le_mul_of_nonneg_left hy (by omega)
  have hindex := h.index
  exact ⟨Int.mul_nonneg (by omega) (Int.natCast_nonneg y), by omega⟩

end Cover

section Launches

variable {α : Type} {width height : Int} {kernel : Nat → Nat → Outcome (Option (Nat × α))}

/-- A launch over an image that fits fills it. -/
theorem LaunchFits.exists_launchOver (h : LaunchFits width height) (s : Scheduler) (hw : 0 < width)
    (hh : 0 < height) {value : Int → Int → α}
    (hinside : ∀ x y : Nat, (x : Int) < width → (y : Int) < height →
      kernel x y = .ok (some ((width * y + x).toNat, value x y)))
    (houtside : ∀ x y : Nat, (x : Int) ≥ width ∨ (y : Int) ≥ height →
      ∀ w, kernel x y = .ok w → w = none)
    (hreturns : ∀ x y : Nat, (x : Int) ≤ lastThread width → (y : Int) ≤ lastThread height →
      ∃ w, kernel x y = .ok w) (m : Nat → α) :
    ∃ m', launchOver s width height kernel m = .ok m' ∧
      ∀ x y : Int, 0 ≤ x → x < width → 0 ≤ y → y < height →
        m' (y * width + x).toNat = value x y := by
  have hcolumns := h.columns
  have hrows := h.rows
  have hgrid : gridSize width height = .ok (coveringGrid width height) :=
    (gridSize_eq_ok hw hh).mpr ⟨⟨hcolumns, by unfold intMax; omega⟩, rfl⟩
  have hvalid : (coveringGrid width height).Valid := (coveringGrid_valid hw hh hcolumns).mpr hrows
  obtain ⟨w, rfl⟩ := Int.eq_ofNat_of_zero_le (le_of_lt hw)
  obtain ⟨n, rfl⟩ := Int.eq_ofNat_of_zero_le (le_of_lt hh)
  -- over natural numbers, the grid covers the image and each thread stores its pixel
  have hfull : ∃ m', launchStores s (coveringGrid w n) blockSize kernel m = .ok m' ∧
      ∀ x y, x < w → y < n → m' (y * w + x) = value x y := by
    apply exists_launchImage s hvalid
    · show w ≤ ((w + 23 : Int) / 24).toNat * 24
      omega
    · show n ≤ ((n + 23 : Int) / 24).toNat * 24
      omega
    · intro x y hx hy
      rw [hinside x y (by omega) (by omega), ← Nat.cast_mul, ← Nat.cast_add, Int.toNat_natCast,
        Nat.mul_comm w]
    · intro x y hout v hv
      have hnone := houtside x y (by omega) _ hv
      cases hnone
    · intro x hx y hy
      exact hreturns x y ((lt_columns_iff x).mp hx) ((lt_rows_iff y).mp hy)
  obtain ⟨m', hrun, hvalue⟩ := hfull
  refine ⟨m', ?_, fun x y hx hx' hy hy' => ?_⟩
  · rw [launchOver, hgrid, Outcome.ok_bind, hrun, Outcome.ok_bind, Outcome.require_of hvalid]
    rfl
  · obtain ⟨x, rfl⟩ := Int.eq_ofNat_of_zero_le hx
    obtain ⟨y, rfl⟩ := Int.eq_ofNat_of_zero_le hy
    rw [← Nat.cast_mul, ← Nat.cast_add, Int.toNat_natCast]
    exact hvalue x y (by omega) (by omega)

/-- A launch that returns has run its last thread. -/
theorem of_launchOver {s : Scheduler} {m m' : Nat → α} (hw : 0 < width) (hh : 0 < height)
    (h : launchOver s width height kernel m = .ok m') :
    (width + 24 ≤ intMax ∧ height ≤ 1572840) ∧
      ∃ w, kernel (lastThread width).toNat (lastThread height).toNat = .ok w := by
  simp only [launchOver, Outcome.bind_eq_ok, gridSize_eq_ok hw hh] at h
  obtain ⟨_, ⟨⟨hcolumns, -⟩, rfl⟩, m₁, hrun, _, hrequire, -⟩ := h
  have hvalid : (coveringGrid width height).Valid := Outcome.require_eq_ok.mp hrequire
  have hwlast := le_lastThread hw
  have hhlast := le_lastThread hh
  refine ⟨⟨hcolumns, (coveringGrid_valid hw hh hcolumns).mp hvalid⟩, ?_⟩
  apply ok_of_launchStores hrun hvalid
  · rw [lt_columns_iff]
    omega
  · rw [lt_rows_iff]
    omega

end Launches

/-! ## Deramping -/

section Rotation

variable {T : Type} [Field T] {sincos : T → T × T}

/-- Turned by an angle and back. -/
theorem reramp_turn {phase : T} (hcircle : (sincos phase).1 ^ 2 + (sincos phase).2 ^ 2 = 1)
    (i q : T) :
    reramp sincos false phase (turn sincos phase i q).i (turn sincos phase i q).q = (i, q) := by
  have hi : (i * (sincos phase).2 - q * (sincos phase).1) * (sincos phase).2 +
      (i * (sincos phase).1 + q * (sincos phase).2) * (sincos phase).1 = i := by
    linear_combination i * hcircle
  have hq : -(i * (sincos phase).2 - q * (sincos phase).1) * (sincos phase).1 +
      (i * (sincos phase).1 + q * (sincos phase).2) * (sincos phase).2 = q := by
    linear_combination q * hcircle
  exact Prod.ext hi hq

end Rotation

namespace Tile

variable {T : Type} [Field T] {tile : Tile} (product : SlaveProduct T) (pi : T)
  (sincos : T → T × T)

/-- The first kernel, with what the worker and the sub-swath give it. -/
def derampThread (tile : Tile) (product : SlaveProduct T) (pi : T) (sincos : T → T × T) :
    Nat → Nat → Outcome (Option (Nat × DemodSample T)) :=
  derampDemod pi sincos tile.slaveRectangle (tile.slaveTile product.i) (tile.slaveTile product.q)
    (tile.subSwath product) tile.sBurstIndex

/-- The first lines of the burst and of the next one are lines of the raster. -/
theorem firstLine_bounds (tile : Tile) : 0 ≤ tile.sBurstIndex * tile.swath.linesPerBurst ∧
    tile.sBurstIndex * tile.swath.linesPerBurst + tile.swath.linesPerBurst ≤ intMax := by
  have hpos := tile.swath.lines_pos
  obtain ⟨hfirst, hlast⟩ := tile.burst
  have hend : (tile.sBurstIndex + 1) * tile.swath.linesPerBurst ≤
      tile.swath.numOfBursts * tile.swath.linesPerBurst :=
    Int.mul_le_mul_of_nonneg_right (by omega) (by omega)
  rw [Int.add_mul, Int.one_mul] at hend
  exact ⟨Int.mul_nonneg hfirst (by omega), hend.trans tile.swath.lines_fit⟩

/-- The lines of the burst are computed. -/
theorem subswath_int32 (tile : Tile) :
    int32 (tile.swath.linesPerBurst * tile.sBurstIndex) =
        .ok (tile.swath.linesPerBurst * tile.sBurstIndex) ∧
      int32 (tile.sBurstIndex + 1) = .ok (tile.sBurstIndex + 1) ∧
      int32 (tile.swath.linesPerBurst * (tile.sBurstIndex + 1)) =
        .ok (tile.swath.linesPerBurst * (tile.sBurstIndex + 1)) := by
  obtain ⟨hfirst, hnext⟩ := tile.firstLine_bounds
  have hlines := tile.swath.lines_pos
  have hburst := tile.burst.1
  have hle : 1 * (tile.sBurstIndex + 1) ≤ tile.swath.linesPerBurst * (tile.sBurstIndex + 1) :=
    Int.mul_le_mul_of_nonneg_right (by omega) (by omega)
  have hend : tile.swath.linesPerBurst * (tile.sBurstIndex + 1) =
      tile.sBurstIndex * tile.swath.linesPerBurst + tile.swath.linesPerBurst := by ring
  rw [Int.mul_comm tile.swath.linesPerBurst tile.sBurstIndex]
  unfold intMax at hnext
  exact ⟨int32_of_bounds (by omega) (by omega), int32_of_bounds (by omega) (by omega),
    int32_of_bounds (by omega) (by omega)⟩

/-- A column of the burst has its place in the tables. -/
theorem table_bounds (tile : Tile) : 0 ≤ tile.sBurstIndex * tile.swath.samplesPerBurst ∧
    tile.sBurstIndex * tile.swath.samplesPerBurst + tile.swath.samplesPerBurst ≤ intMax := by
  have hpos := tile.swath.samples_pos
  obtain ⟨hfirst, hlast⟩ := tile.burst
  have hend : (tile.sBurstIndex + 1) * tile.swath.samplesPerBurst ≤
      tile.swath.numOfBursts * tile.swath.samplesPerBurst :=
    Int.mul_le_mul_of_nonneg_right (by omega) (by omega)
  rw [Int.add_mul, Int.one_mul] at hend
  exact ⟨Int.mul_nonneg hfirst (by omega), hend.trans tile.tables_fit⟩

omit [Field T] in
theorem deviceTable_eq {x : Int} (hx : 0 ≤ x) (hx' : x < tile.swath.samplesPerBurst)
    (table : Int → Int → T) :
    vectorIndex (tile.deviceTable table) (tile.sBurstIndex * tile.swath.samplesPerBurst + x) =
      .ok (table tile.sBurstIndex x) := by
  rw [Int.mul_comm]
  exact vectorIndex_rowMajor hx hx' tile.burst.1 tile.burst.2 _

theorem slaveTile_eq {x y : Int} (hx : 0 ≤ x) (hx' : x < tile.slaveRectangle.width) (hy : 0 ≤ y)
    (hy' : y < tile.slaveRectangle.height) (samples : Int → Int → Int16) :
    vectorIndex (tile.slaveTile samples) (tile.slaveRectangle.width * y + x) =
      .ok (samples (tile.slaveRectangle.x + x) (tile.slaveRectangle.y + y)) :=
  vectorIndex_rowMajor hx hx' hy hy' _

/-- A thread of the grid computes its places, and is done when it lies outside. -/
theorem derampThread_eq (h : tile.Fits) {idx idy : Nat}
    (hx : (idx : Int) ≤ lastThread tile.slaveRectangle.width)
    (hy : (idy : Int) ≤ lastThread tile.slaveRectangle.height) :
    derampThread tile product pi sincos idx idy =
      if (idx : Int) < tile.slaveRectangle.width ∧ (idy : Int) < tile.slaveRectangle.height then
        .ok (some ((tile.slaveRectangle.width * idy + idx).toNat, tile.deramped product pi sincos
          (tile.slaveRectangle.x + idx) (tile.slaveRectangle.y + idy)))
      else .ok none := by
  have hwidth := tile.slave_pos.1
  have hleft := tile.columns
  have hupper := tile.lines
  have hright := h.right
  have hlower := h.lower
  obtain ⟨hfirst, hnext⟩ := tile.firstLine_bounds
  obtain ⟨hrow, hindex⟩ := h.slave.index_le hwidth hx hy
  obtain ⟨htable, htables⟩ := tile.table_bounds
  have hlines := tile.swath.lines_pos
  -- no index of the thread passes the bounds of an `int`
  unfold intMax at hright hlower hnext hindex htables
  rw [derampThread, derampDemod, int32_of_bounds (by omega) (by omega),
    Outcome.ok_bind, int32_of_bounds (by omega) (by omega), Outcome.ok_bind]
  simp only [subSwath]
  rw [int32_of_bounds (by omega) (by omega), Outcome.ok_bind,
    int32_of_bounds (by omega) (by omega), Outcome.ok_bind,
    int32_of_bounds (by omega) (by omega), Outcome.ok_bind]
  -- a thread outside the tile stores nothing
  by_cases hin : (idx : Int) < tile.slaveRectangle.width ∧
      (idy : Int) < tile.slaveRectangle.height
  · rw [if_neg (by omega), if_pos hin, int32_of_bounds (by omega) (by omega),
      Outcome.ok_bind, int32_of_bounds (by omega) (by omega), Outcome.ok_bind,
      int32_of_bounds (by omega) (by omega), Outcome.ok_bind,
      deviceTable_eq (by omega) (by omega), Outcome.ok_bind,
      deviceTable_eq (by omega) (by omega), Outcome.ok_bind,
      deviceTable_eq (by omega) (by omega), Outcome.ok_bind,
      slaveTile_eq (by omega) hin.1 (by omega) hin.2, Outcome.ok_bind,
      slaveTile_eq (by omega) hin.1 (by omega) hin.2, Outcome.ok_bind]
    rfl
  · rw [if_pos (by omega), if_neg hin]
    rfl

/-- A thread outside of the rectangle stores nothing. -/
theorem derampThread_outside {idx idy : Nat} (hout : (idx : Int) ≥ tile.slaveRectangle.width ∨
      (idy : Int) ≥ tile.slaveRectangle.height) {w : Option (Nat × DemodSample T)}
    (h : derampThread tile product pi sincos idx idy = .ok w) : w = none := by
  simp only [derampThread, derampDemod, Outcome.bind_eq_ok, if_pos hout, Outcome.pure_eq,
    Outcome.ok.injEq] at h
  obtain ⟨_, -, _, -, _, -, _, -, _, -, hnone⟩ := h
  exact hnone.symm

/-- The first launch fills the arrays with the deramped samples. -/
theorem Fits.exists_deramped (h : tile.Fits) (s : Scheduler) (demod : Nat → DemodSample T) :
    ∃ demod', launchOver s tile.slaveRectangle.width tile.slaveRectangle.height
        (derampThread tile product pi sincos) demod = .ok demod' ∧
      ∀ x y : Int, 0 ≤ x → x < tile.slaveRectangle.width → 0 ≤ y →
        y < tile.slaveRectangle.height →
          demod' (y * tile.slaveRectangle.width + x).toNat = tile.deramped product pi sincos
            (tile.slaveRectangle.x + x) (tile.slaveRectangle.y + y) := by
  apply h.slave.exists_launchOver s tile.slave_pos.1 tile.slave_pos.2
  · intro x y hx hy
    rw [derampThread_eq product pi sincos h (le_lastThread hx) (le_lastThread hy),
      if_pos ⟨hx, hy⟩]
  · intro x y hout w hw
    exact derampThread_outside product pi sincos hout hw
  · intro x y hx hy
    rw [derampThread_eq product pi sincos h hx hy]
    split
    · exact ⟨_, rfl⟩
    · exact ⟨_, rfl⟩

/-! ## Resampling at the grid -/

/-- The deramped samples, by their place in the raster. -/
def demod (tile : Tile) (product : SlaveProduct T) (pi : T) (sincos : T → T × T) : Demod T where
  phase x y := (tile.deramped product pi sincos x y).phase
  i x y := (tile.deramped product pi sincos x y).i
  q x y := (tile.deramped product pi sincos x y).q

/-- The arrays hold the deramped samples of the rectangle. -/
theorem deviceArray_eq (value : DemodSample T → T) {memory : Nat → DemodSample T}
    (h : ∀ x y : Int, 0 ≤ x → x < tile.slaveRectangle.width → 0 ≤ y →
      y < tile.slaveRectangle.height →
        memory (y * tile.slaveRectangle.width + x).toNat = tile.deramped product pi sincos
          (tile.slaveRectangle.x + x) (tile.slaveRectangle.y + y)) :
    deviceArray (tile.slaveRectangle.width * tile.slaveRectangle.height).toNat
        (fun k => value (memory k)) =
      cutOut tile.slaveRectangle fun x y => value (tile.deramped product pi sincos x y) := by
  apply map_range_eq_rowMajor tile.slave_pos.1 (le_of_lt tile.slave_pos.2)
  intro x y hx hx' hy hy'
  rw [h x y hx hx' hy hy']

variable [LinearOrder T] [FloorRing T]

/-- The second kernel, on these arrays. -/
def bilinearKernel (tile : Tile) (positions : Int → Int → T × T) (sincos : T → T × T)
    (disableReramp : Bool) (demod : Demod T) : Nat → Nat → Outcome (Option (Nat × T × T)) :=
  bilinearThread sincos
    { demodWidth := tile.slaveRectangle.width
      demodHeight := tile.slaveRectangle.height
      rectangleX := tile.slaveRectangle.x
      rectangleY := tile.slaveRectangle.y
      subswathStart := tile.swath.linesPerBurst * tile.sBurstIndex
      subswathEnd := tile.swath.linesPerBurst * (tile.sBurstIndex + 1)
      noDataValue := 0
      disableReramp }
    tile.targetArea.width tile.targetArea.height
    (rowMajor tile.targetArea.width tile.targetArea.height fun px py => (positions px py).1)
    (rowMajor tile.targetArea.width tile.targetArea.height fun px py => (positions px py).2)
    (cutOut tile.slaveRectangle demod.phase) (cutOut tile.slaveRectangle demod.i)
    (cutOut tile.slaveRectangle demod.q)

variable (disableReramp : Bool) (positions : Int → Int → T × T)

/-- Each thread of the image resamples at its own position. -/
theorem bilinearKernel_eq (h : LaunchFits tile.targetArea.width tile.targetArea.height)
    (demod : Demod T) {idx idy : Nat} (hx : (idx : Int) ≤ lastThread tile.targetArea.width)
    (hy : (idy : Int) ≤ lastThread tile.targetArea.height) :
    bilinearKernel tile positions sincos disableReramp demod idx idy =
      if (idx : Int) < tile.targetArea.width ∧ (idy : Int) < tile.targetArea.height then do
        let result ← coreCompute sincos tile.swath tile.sBurstIndex demod disableReramp
          tile.slaveRectangle (positions idx idy).1 (positions idx idy).2
        return some ((tile.targetArea.width * idy + idx).toNat, result)
      else .ok none := by
  obtain ⟨hrow, hindex⟩ := h.index_le tile.target_pos.1 hx hy
  unfold intMax at hindex
  rw [bilinearKernel, bilinearThread, Int.mul_comm (idy : Int),
    int32_of_bounds (by omega) (by omega), Outcome.ok_bind,
    int32_of_bounds (by omega) (by omega), Outcome.ok_bind]
  by_cases hin : (idx : Int) < tile.targetArea.width ∧ (idy : Int) < tile.targetArea.height
  · rw [if_neg (by omega), if_pos hin, vectorIndex_rowMajor (by omega) hin.1 (by omega) hin.2,
      Outcome.ok_bind, vectorIndex_rowMajor (by omega) hin.1 (by omega) hin.2, Outcome.ok_bind]
    rfl
  · rw [if_pos (by omega), if_neg hin]
    rfl

/-- A thread outside of the target area stores nothing. -/
theorem bilinearKernel_outside (demod : Demod T) {idx idy : Nat}
    (hout : (idx : Int) ≥ tile.targetArea.width ∨ (idy : Int) ≥ tile.targetArea.height)
    {w : Option (Nat × T × T)}
    (h : bilinearKernel tile positions sincos disableReramp demod idx idy = .ok w) :
    w = none := by
  simp only [bilinearKernel, bilinearThread, Outcome.bind_eq_ok, if_pos hout, Outcome.pure_eq,
    Outcome.ok.injEq] at h
  obtain ⟨_, -, _, -, hnone⟩ := h
  exact hnone.symm

variable [IsStrictOrderedRing T]

/-- An image whose edge is that of the rectangle. -/
def edge (tile : Tile) (image : Int → Int → T) : Int → Int → T :=
  replicateEdge tile.slaveRectangle.x
    (tile.slaveRectangle.x + tile.slaveRectangle.width - 1) tile.slaveRectangle.y
    (tile.slaveRectangle.y + tile.slaveRectangle.height - 1) image

/-- A position in the burst is resampled from the rectangle. -/
theorem coreCompute_inBurst (tile : Tile) (demod : Demod T) {x y : T}
    (hin : ¬ ((x = invalidIndex ∧ y = invalidIndex) ∨
      ¬ InBurst tile.swath tile.sBurstIndex y)) :
    coreCompute sincos tile.swath tile.sBurstIndex demod disableReramp tile.slaveRectangle x y =
      .ok (reramp sincos disableReramp (bilinear (tile.edge demod.phase) x y)
        (bilinear (tile.edge demod.i) x y) (bilinear (tile.edge demod.q) x y)) := by
  refine (if_neg hin).trans ?_
  simp only [resampleNoDem_cutOut tile.slave_pos.1 tile.slave_pos.2, Outcome.ok_bind]
  rfl

/-- Every position has a value. -/
theorem exists_coreCompute (tile : Tile) (demod : Demod T) (x y : T) :
    ∃ v, coreCompute sincos tile.swath tile.sBurstIndex demod disableReramp tile.slaveRectangle
      x y = .ok v := by
  by_cases hout : (x = invalidIndex ∧ y = invalidIndex) ∨
      ¬ InBurst tile.swath tile.sBurstIndex y
  · exact ⟨(0, 0), coreCompute_of_not hout⟩
  · exact ⟨_, coreCompute_inBurst sincos disableReramp tile demod hout⟩

/-- At a place of the rectangle the sample of this place is turned back. -/
theorem coreCompute_intCast (demod : Demod T) {x y : Int}
    (hin : tile.slaveRectangle.Contains x y) :
    coreCompute sincos tile.swath tile.sBurstIndex demod disableReramp tile.slaveRectangle
        (x : T) (y : T) =
      .ok (reramp sincos disableReramp (demod.phase x y) (demod.i x y) (demod.q x y)) := by
  obtain ⟨hx, hx', hy, hy'⟩ := hin
  have hlines := tile.lines
  have hfirst := tile.firstLine_bounds.1
  have hinvalid : ¬ ((x : T) = invalidIndex ∧ (y : T) = invalidIndex) := by
    -- no line of the raster has this number
    rintro ⟨-, hinvalid⟩
    have hline : y = -9999 := Int.cast_injective hinvalid
    omega
  have hburst : InBurst tile.swath tile.sBurstIndex (y : T) := by
    rw [inBurst_iff, Int.floor_intCast]
    omega
  have hread (image : Int → Int → T) : bilinear (tile.edge image) (x : T) (y : T) = image x y := by
    rw [bilinear_intCast, edge, replicateEdge_of_mem ⟨hx, by omega⟩ ⟨hy, by omega⟩]
  rw [coreCompute_inBurst sincos disableReramp tile demod
    (not_or.mpr ⟨hinvalid, not_not.mpr hburst⟩), hread, hread, hread]

/-- The second launch fills the arrays of results. -/
theorem exists_resampled (h : LaunchFits tile.targetArea.width tile.targetArea.height)
    (s : Scheduler) (demod : Demod T) (results : Nat → T × T) :
    ∃ results', launchOver s tile.targetArea.width tile.targetArea.height
        (bilinearKernel tile positions sincos disableReramp demod) results = .ok results' ∧
      ∀ px py : Int, 0 ≤ px → px < tile.targetArea.width → 0 ≤ py →
        py < tile.targetArea.height →
          coreCompute sincos tile.swath tile.sBurstIndex demod disableReramp tile.slaveRectangle
              (positions px py).1 (positions px py).2 =
            .ok (results' (py * tile.targetArea.width + px).toNat) := by
  -- every pixel of the target has a value
  have hvalue (px py : Int) := exists_coreCompute sincos disableReramp tile demod
    (positions px py).1 (positions px py).2
  choose value hvalue using hvalue
  have hlaunch : ∃ results', launchOver s tile.targetArea.width tile.targetArea.height
        (bilinearKernel tile positions sincos disableReramp demod) results = .ok results' ∧
      ∀ px py : Int, 0 ≤ px → px < tile.targetArea.width → 0 ≤ py →
        py < tile.targetArea.height →
          results' (py * tile.targetArea.width + px).toNat = value px py := by
    apply h.exists_launchOver s tile.target_pos.1 tile.target_pos.2
    · intro px py hx hy
      rw [bilinearKernel_eq sincos disableReramp positions h demod (le_lastThread hx)
        (le_lastThread hy), if_pos ⟨hx, hy⟩, hvalue]
      rfl
    · intro px py hout w hw
      exact bilinearKernel_outside sincos disableReramp positions demod hout hw
    · intro px py hx hy
      rw [bilinearKernel_eq sincos disableReramp positions h demod hx hy]
      split
      · rw [hvalue]
        exact ⟨_, rfl⟩
      · exact ⟨_, rfl⟩
  obtain ⟨results', hrun, hresults⟩ := hlaunch
  refine ⟨results', hrun, fun px py hx hx' hy hy' => ?_⟩
  rw [hresults px py hx hx' hy hy', hvalue]

/-! ## Both launches -/

variable {sincos pi disableReramp positions product}

/-- Where the launches fit, what is turned is turned back. -/
theorem Fits.restoresSamples (h : tile.Fits) : tile.RestoresSamples T := by
  intro s product positions pi sincos disableReramp demod results hcircle
  obtain ⟨demod', hderamp, hdemod⟩ := h.exists_deramped product pi sincos s demod
  obtain ⟨results', hresample, hresults⟩ := exists_resampled sincos disableReramp positions
    h.target s (tile.demod product pi sincos) results
  obtain ⟨hstart, hnext, hend⟩ := tile.subswath_int32
  refine ⟨results', ?_, fun px py x y hx hx' hy hy' hposition hin => ?_⟩
  · unfold CoreComputeParams.coreCompute
    refine Outcome.bind_eq_ok.mpr ⟨demod', hderamp, ?_⟩
    simp only [params, subSwath]
    rw [hstart, Outcome.ok_bind, hnext, Outcome.ok_bind, hend, Outcome.ok_bind,
      deviceArray_eq product pi sincos DemodSample.phase hdemod,
      deviceArray_eq product pi sincos DemodSample.i hdemod,
      deviceArray_eq product pi sincos DemodSample.q hdemod]
    exact hresample
  · have hpixel := hresults px py hx hx' hy hy'
    rw [hposition, coreCompute_intCast sincos disableReramp _ hin, Outcome.ok.injEq] at hpixel
    rw [← hpixel]
    cases disableReramp with
    | true => rfl
    | false => exact reramp_turn (hcircle _) _ _

omit [IsStrictOrderedRing T] in
/-- When the launches return, their last threads have computed their places. -/
theorem fits_of_coreCompute {s : Scheduler} {demod : Nat → DemodSample T}
    {results results' : Nat → T × T}
    (h : (tile.params product positions).coreCompute s pi sincos (tile.subSwath product)
      disableReramp demod results = .ok results') : tile.Fits := by
  have hslave := tile.slave_pos
  have htarget := tile.target_pos
  simp only [CoreComputeParams.coreCompute, params, Outcome.bind_eq_ok] at h
  obtain ⟨demod', hderamp, _, -, _, -, _, -, hresample⟩ := h
  obtain ⟨⟨hcolumns, hrows⟩, w, hlast⟩ := of_launchOver hslave.1 hslave.2 hderamp
  obtain ⟨⟨hcolumns', hrows'⟩, w', hlast'⟩ := of_launchOver htarget.1 htarget.2 hresample
  simp only [derampDemod, Outcome.bind_eq_ok, int32_eq_ok, fits32_iff, toNat_lastThread hslave.1,
    toNat_lastThread hslave.2] at hlast
  obtain ⟨_, ⟨-, rfl⟩, _, ⟨hindex, rfl⟩, _, -, _, ⟨hlower, rfl⟩, _, ⟨hright, rfl⟩, -⟩ := hlast
  simp only [bilinearThread, Outcome.bind_eq_ok, int32_eq_ok, fits32_iff,
    toNat_lastThread htarget.1, toNat_lastThread htarget.2] at hlast'
  obtain ⟨_, ⟨-, rfl⟩, _, ⟨hindex', rfl⟩, -⟩ := hlast'
  rw [Int.mul_comm] at hindex'
  exact {
    slave := ⟨hcolumns, hrows, Int.le_of_lt_add_one hindex.2⟩
    right := Int.le_of_lt_add_one hright.2
    lower := Int.le_of_lt_add_one hlower.2
    target := ⟨hcolumns', hrows', Int.le_of_lt_add_one hindex'.2⟩ }

/-- A product whose samples and tables are zero. -/
def noProduct : SlaveProduct T := ⟨fun _ _ => 0, fun _ _ => 0, 0, fun _ _ => 0, fun _ _ => 0,
  fun _ _ => 0⟩

omit [IsStrictOrderedRing T] in
theorem RestoresSamples.fits (h : tile.RestoresSamples T) : tile.Fits := by
  have hunit : ∀ _ : T, (0 : T) ^ 2 + (1 : T) ^ 2 = 1 := by
    intro _
    ring
  obtain ⟨results', hrun, -⟩ := h Scheduler.byPhase noProduct (fun _ _ => (0, 0)) 0
    (fun _ => (0, 1)) false (fun _ => ⟨0, 0, 0⟩) (fun _ => (0, 0)) hunit
  exact fits_of_coreCompute hrun

variable (tile T) in
/-- **Deramping, resampling and reramping at the places of the grid.** The three arrays are written
and read alike, the weights of a place are those of its own sample, and the second rotation undoes
the first, in every rectangle whose launches fit. -/
theorem restoresSamples_iff : tile.RestoresSamples T ↔ tile.Fits := by
  constructor
  · intro h
    exact h.fits
  · intro h
    exact h.restoresSamples

end Tile

/-- A burst of one line and one sample, and one output pixel. -/
def oneSampleTile : Tile where
  swath := oneSample
  sBurstIndex := 0
  slaveRectangle := ⟨0, 0, 1, 1⟩
  targetArea := ⟨0, 0, 1, 1⟩
  burst := by decide
  slave_pos := by decide
  target_pos := by decide
  columns := by decide
  lines := by decide
  tables_fit := by decide

theorem restoresSamples_oneSample : oneSampleTile.RestoresSamples ℚ :=
  (Tile.restoresSamples_iff ℚ oneSampleTile).mpr {
    slave := ⟨by decide, by decide, by decide⟩
    right := by decide
    lower := by decide
    target := ⟨by decide, by decide, by decide⟩ }

/-- A burst of more samples than an `int` counts, which `CheckedPixelCount` takes. -/
def wideBurst : SlaveSubSwath where
  numOfBursts := 1
  linesPerBurst := 46341
  samplesPerBurst := 46341
  lines_pos := by decide
  samples_pos := by decide
  lines_fit := by decide
  samples_fit := by decide
  burst_fits := by decide

/-- The whole of that burst, for one output pixel. -/
def wideTile : Tile where
  swath := wideBurst
  sBurstIndex := 0
  slaveRectangle := ⟨0, 0, 46341, 46341⟩
  targetArea := ⟨0, 0, 1, 1⟩
  burst := by decide
  slave_pos := by decide
  target_pos := by decide
  columns := by decide
  lines := by decide
  tables_fit := by decide

theorem not_restoresSamples_wideTile : ¬ wideTile.RestoresSamples ℚ := by
  intro h
  have hindex := h.fits.slave.index
  revert hindex
  decide

end Alus.Backgeocoding
