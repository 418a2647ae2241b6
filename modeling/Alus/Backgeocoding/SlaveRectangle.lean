import Mathlib.Data.Rat.Floor
import Alus.Backgeocoding.SlavePixPos
import Alus.Lib.Tiling
import Alus.SnapEngine.BilinearInterpolation

/-!
# The slave rectangle of a tile

For a tile of the master burst, `PositionCompute` (`backgeocoding.cc`) takes the bounds of the
slave positions of its pixels, widens them by the kernel size and clips them to the slave burst.
The worker reads that rectangle, `DerampDemod` demodulates it, and `BilinearInterpolation`
(`bilinear.cu`) resamples it at the position of each pixel. Without a rectangle the worker writes
the no-data value for the whole tile.

Positions are exact numbers, fixed for each pixel: what the triangular interpolation reports, and
whether the elevation mask removes it. The demodulated samples of the slave burst and `sincos`
are parameters.
-/

namespace Alus.Backgeocoding

open Alus.Lib
open Alus.SnapEngine (ResamplingIndex computeIndex resampleNoDem computeIndex_add_half)

/-- `BILINEAR_INTERPOLATION_KERNEL_SIZE`. -/
def bilinearInterpolationKernelSize : Int := 4

def intMax : Int := 2147483647

def intLowest : Int := -2147483648

/-- The slave sub-swath, whose raster an `int` can index and whose bursts can be allocated as
`double`. -/
structure SlaveSubSwath where
  numOfBursts : Int
  linesPerBurst : Int
  samplesPerBurst : Int
  lines_pos : 0 < linesPerBurst
  samples_pos : 0 < samplesPerBurst
  lines_fit : numOfBursts * linesPerBurst ≤ intMax
  samples_fit : samplesPerBurst ≤ intMax
  burst_fits : samplesPerBurst * linesPerBurst ≤ 2305843009213693951

section Geometry

variable {T : Type} [Field T] [LinearOrder T] [FloorRing T]

/-- The slave positions of the pixels of the master burst, and what the elevation mask removes. The
interpolation converts the floor of every position to `int`. -/
structure SlavePositions (T : Type) [Field T] [LinearOrder T] [FloorRing T] where
  interpolated : Int → Int → Option (T × T)
  masked : Int → Int → Bool
  x_fits : ∀ px py p, interpolated px py = some p → Fits 32 ⌊p.1⌋
  y_fits : ∀ px py p, interpolated px py = some p → Fits 32 ⌊p.2⌋

/-- `CoordMinMax`. -/
structure CoordMinMax where
  xMin : Int
  xMax : Int
  yMin : Int
  yMax : Int

variable (positions : SlavePositions T)

/-- The positions the interpolation reports in the tile. -/
def positionsIn (t : Rectangle) : List (T × T) :=
  (tilePixels t).filterMap fun p => positions.interpolated p.1 p.2

/-- The minimum and maximum over the tile, by `atomicMin` and `atomicMax`. -/
def coordMinMax (t : Rectangle) : CoordMinMax where
  xMin := ((positionsIn positions t).map fun p => ⌊p.1⌋).foldl min intMax
  xMax := ((positionsIn positions t).map fun p => ⌊p.1⌋).foldl max intLowest
  yMin := ((positionsIn positions t).map fun p => ⌊p.2⌋).foldl min intMax
  yMax := ((positionsIn positions t).map fun p => ⌊p.2⌋).foldl max intLowest

/-- `ElevationMask` on one pixel: the position it leaves in the arrays. -/
def elevationMask (px py : Int) : T × T :=
  match positions.interpolated px py with
  | none => (invalidIndex, invalidIndex)
  | some (x, y) =>
    -- one invalid index makes both invalid
    if x = invalidIndex ∨ y = invalidIndex then (invalidIndex, invalidIndex)
    else if positions.masked px py then (invalidIndex, invalidIndex)
    else (x, y)

/-- `not_null_counter` counts this pixel. -/
def notNull (px py : Int) : Bool :=
  match positions.interpolated px py with
  | none => false
  | some (x, y) => ¬ (x = invalidIndex ∨ y = invalidIndex) ∧ ¬ positions.masked px py

/-- `RectangleFromInclusiveBounds`. -/
def rectangleFromInclusiveBounds (xMin xMax yMin yMax : Int) : Outcome Rectangle :=
  if xMin > xMax ∨ yMin > yMax then
    return ⟨0, 0, 0, 0⟩
  else do
    let width := xMax - xMin + 1
    let height := yMax - yMin + 1
    Outcome.require (¬ (width > intMax ∨ height > intMax))
    return ⟨xMin, yMin, width, height⟩

/-- `CheckedPixelCount`. -/
def checkedPixelCount (r : Rectangle) : Outcome Int := do
  Outcome.require (¬ (r.width < 0 ∨ r.height < 0))
  if r.width = 0 ∨ r.height = 0 then
    return 0
  else do
    Outcome.require (¬ r.width > 2305843009213693951 / r.height)
    return r.width * r.height

/-- `PositionCompute`. -/
def positionCompute (swath : SlaveSubSwath) (sBurstIndex : Int) (t : Rectangle) :
    Outcome Rectangle :=
  if sBurstIndex < 0 ∨ sBurstIndex ≥ swath.numOfBursts then
    return ⟨0, 0, 0, 0⟩
  else if ¬ (tilePixels t).any fun p => notNull positions p.1 p.2 then
    return ⟨0, 0, 0, 0⟩
  else
    let bounds := coordMinMax positions t
    let margin := bilinearInterpolationKernelSize
    let firstLineIndex := sBurstIndex * swath.linesPerBurst
    let lastLineIndex := firstLineIndex + swath.linesPerBurst - 1
    let firstPixelIndex := 0
    let lastPixelIndex := swath.samplesPerBurst - 1
    rectangleFromInclusiveBounds (max (bounds.xMin - margin) firstPixelIndex)
      (min (bounds.xMax + margin) lastPixelIndex) (max (bounds.yMin - margin) firstLineIndex)
      (min (bounds.yMax + margin) lastLineIndex)

/-! ## The kernel -/

structure BilinearParams (T : Type) where
  demodWidth : Int
  demodHeight : Int
  rectangleX : Int
  rectangleY : Int
  subswathStart : Int
  subswathEnd : Int
  noDataValue : T
  disableReramp : Bool

/-- `GetSamples`. -/
def getSamples (values : List T) (valueWidth : Int) (noValue : T) (useNoData : Bool)
    (index : ResamplingIndex T) : Outcome (Corners T × Bool) := do
  let v00 ← vectorIndex values (valueWidth * index.j.first + index.i.first)
  let v01 ← vectorIndex values (valueWidth * index.j.first + index.i.second)
  let v10 ← vectorIndex values (valueWidth * index.j.second + index.i.first)
  let v11 ← vectorIndex values (valueWidth * index.j.second + index.i.second)
  let isValid := ¬ (useNoData ∧ (noValue = v00 ∨ noValue = v01 ∨ noValue = v10 ∨ noValue = v11))
  return (⟨v00, v01, v10, v11⟩, isValid)

/-- The demodulated slave burst, by column and row of the slave raster. -/
structure Demod (T : Type) where
  phase : Int → Int → T
  i : Int → Int → T
  q : Int → Int → T

/-- The samples turned back by the phase. -/
def reramp (sincos : T → T × T) (disableReramp : Bool) (phase i q : T) : T × T :=
  let (sinPhase, cosPhase) := sincos phase
  if ¬ disableReramp then (i * cosPhase + q * sinPhase, -i * sinPhase + q * cosPhase)
  else (i, q)

/-- `BilinearInterpolation` on one pixel. -/
def bilinearInterpolation (sincos : T → T × T) (params : BilinearParams T)
    (demodPhase demodI demodQ : List T) (x y : T) : Outcome (T × T) :=
  -- a position outside the burst gets no value
  if (x = invalidIndex ∧ y = invalidIndex) ∨
      ¬ (y ≥ params.subswathStart ∧ y < params.subswathEnd) then
    return (params.noDataValue, params.noDataValue)
  else do
    let index := computeIndex (x - params.rectangleX + 1 / 2) (y - params.rectangleY + 1 / 2)
      params.demodWidth params.demodHeight
    let samplePhase ←
      resampleNoDem (getSamples demodPhase params.demodWidth params.noDataValue false) index
    let sampleI ←
      resampleNoDem (getSamples demodI params.demodWidth params.noDataValue false) index
    let sampleQ ←
      resampleNoDem (getSamples demodQ params.demodWidth params.noDataValue false) index
    return reramp sincos params.disableReramp samplePhase sampleI sampleQ

/-- The part of the image in the rectangle. -/
def cutOut (r : Rectangle) (image : Int → Int → T) : List T :=
  rowMajor r.width r.height fun x y => image (r.x + x) (r.y + y)

variable (sincos : T → T × T) (swath : SlaveSubSwath) (sBurstIndex : Int) (demod : Demod T)
  (disableReramp : Bool)

/-- `CoreCompute` on one pixel. -/
def coreCompute (area : Rectangle) (x y : T) : Outcome (T × T) :=
  bilinearInterpolation sincos
    { demodWidth := area.width
      demodHeight := area.height
      rectangleX := area.x
      rectangleY := area.y
      subswathStart := swath.linesPerBurst * sBurstIndex
      subswathEnd := swath.linesPerBurst * (sBurstIndex + 1)
      noDataValue := 0
      disableReramp }
    (cutOut area demod.phase) (cutOut area demod.i) (cutOut area demod.q) x y

/-- What the worker writes for a pixel of the tile. -/
def tileValue (t : Rectangle) (px py : Int) : Outcome (T × T) := do
  let slaveArea ← positionCompute positions swath sBurstIndex t
  let _demodSize ← checkedPixelCount slaveArea
  if slaveArea.width > 0 ∧ slaveArea.height > 0 then
    let (x, y) := elevationMask positions px py
    coreCompute sincos swath sBurstIndex demod disableReramp slaveArea x y
  else
    return (0, 0)

/-! ## The positions of a tile -/

section Bounds

variable {positions}

theorem mem_positionsIn {t : Rectangle} {px py : Int} {p : T × T} (hpix : t.Contains px py)
    (hp : positions.interpolated px py = some p) : p ∈ positionsIn positions t := by
  exact List.mem_filterMap.mpr ⟨(px, py), mem_tilePixels.mpr hpix, hp⟩

/-- A pixel that counts keeps its position, which is not the marker. -/
theorem notNull_eq_true {px py : Int} (h : notNull positions px py = true) :
    ∃ p, positions.interpolated px py = some p ∧ elevationMask positions px py = p ∧
      p.1 ≠ invalidIndex := by
  unfold notNull at h
  unfold elevationMask
  cases hpos : positions.interpolated px py with
  | none => rw [hpos] at h; cases h
  | some p =>
    obtain ⟨x, y⟩ := p
    rw [hpos] at h
    have hvalid : ¬ (x = invalidIndex ∨ y = invalidIndex) ∧ ¬ positions.masked px py :=
      of_decide_eq_true h
    refine ⟨(x, y), rfl, ?_, fun hx => hvalid.1 (.inl hx)⟩
    show (if x = invalidIndex ∨ y = invalidIndex then _ else _) = (x, y)
    rw [if_neg hvalid.1, if_neg hvalid.2]

/-- Any other pixel gets the marker. -/
theorem notNull_eq_false {px py : Int} (h : notNull positions px py = false) :
    elevationMask positions px py = (invalidIndex, invalidIndex) := by
  unfold notNull at h
  unfold elevationMask
  cases hpos : positions.interpolated px py with
  | none => rfl
  | some p =>
    obtain ⟨x, y⟩ := p
    rw [hpos] at h
    have hnot : ¬ (¬ (x = invalidIndex ∨ y = invalidIndex) ∧ ¬ positions.masked px py) :=
      of_decide_eq_false h
    show (if x = invalidIndex ∨ y = invalidIndex then _ else _) = _
    split_ifs with hinv hmask
    · rfl
    · rfl
    · exact absurd ⟨hinv, hmask⟩ hnot

theorem xMin_le {t : Rectangle} {p : T × T} (hp : p ∈ positionsIn positions t) :
    (coordMinMax positions t).xMin ≤ ⌊p.1⌋ :=
  (le_foldl_min.mp (le_refl _)).2 _ (List.mem_map_of_mem hp)

theorem le_xMax {t : Rectangle} {p : T × T} (hp : p ∈ positionsIn positions t) :
    ⌊p.1⌋ ≤ (coordMinMax positions t).xMax :=
  (foldl_max_le.mp (le_refl _)).2 _ (List.mem_map_of_mem hp)

theorem yMin_le {t : Rectangle} {p : T × T} (hp : p ∈ positionsIn positions t) :
    (coordMinMax positions t).yMin ≤ ⌊p.2⌋ :=
  (le_foldl_min.mp (le_refl _)).2 _ (List.mem_map_of_mem hp)

theorem le_yMax {t : Rectangle} {p : T × T} (hp : p ∈ positionsIn positions t) :
    ⌊p.2⌋ ≤ (coordMinMax positions t).yMax :=
  (foldl_max_le.mp (le_refl _)).2 _ (List.mem_map_of_mem hp)

end Bounds

/-! ## Clipping the rectangle -/

/-- The lower bound `mn`, widened, and clipped at `lo`. -/
def clipLow (mn lo : Int) : Int := max (mn - bilinearInterpolationKernelSize) lo

/-- The upper bound `mx`, widened, and clipped at `hi`. -/
def clipHigh (mx hi : Int) : Int := min (mx + bilinearInterpolationKernelSize) hi

/-- All positions of the tile lie more than the kernel size outside the columns of the burst, on
one side. -/
def OffRange (t : Rectangle) : Prop :=
  (∀ p ∈ positionsIn positions t, ⌊p.1⌋ < -bilinearInterpolationKernelSize) ∨
    ∀ p ∈ positionsIn positions t,
      swath.samplesPerBurst - 1 + bilinearInterpolationKernelSize < ⌊p.1⌋

instance (t : Rectangle) : Decidable (OffRange positions swath t) :=
  inferInstanceAs (Decidable (_ ∨ _))

section Bounds

variable {positions} {swath}

/-- The clipped columns of a tile are disjoint exactly when the tile is off range. -/
theorem offRange_iff {t : Rectangle} (hne : positionsIn positions t ≠ []) :
    OffRange positions swath t ↔
      clipLow (coordMinMax positions t).xMin 0 >
        clipHigh (coordMinMax positions t).xMax (swath.samplesPerBurst - 1) := by
  obtain ⟨p, hp⟩ := List.exists_mem_of_ne_nil _ hne
  have hmin := xMin_le hp
  have hmax := le_xMax hp
  have hsamples := swath.samples_pos
  have hfit := swath.samples_fit
  -- one side of the columns decides, as the bounds of the tile are in order
  have hleft : (∀ p ∈ positionsIn positions t, ⌊p.1⌋ < -bilinearInterpolationKernelSize) ↔
      (coordMinMax positions t).xMax ≤ -bilinearInterpolationKernelSize - 1 := by
    show _ ↔ ((positionsIn positions t).map fun p => ⌊p.1⌋).foldl max intLowest ≤ _
    rw [foldl_max_le, List.forall_mem_map]
    simp only [bilinearInterpolationKernelSize, intLowest]
    constructor
    · exact fun h => ⟨by omega, fun q hq => by have := h q hq; omega⟩
    · exact fun h q hq => by have := h.2 q hq; omega
  have hpos : ∀ p ∈ positionsIn positions t, ⌊p.1⌋ ≤ intMax := by
    intro q hq
    obtain ⟨pixel, -, hpixel⟩ := List.mem_filterMap.mp hq
    have := (fits32_iff.mp (positions.x_fits _ _ q hpixel)).2
    simp only [intMax]
    omega
  have hright : (∀ p ∈ positionsIn positions t,
        swath.samplesPerBurst - 1 + bilinearInterpolationKernelSize < ⌊p.1⌋) ↔
      swath.samplesPerBurst + bilinearInterpolationKernelSize ≤
        (coordMinMax positions t).xMin := by
    show _ ↔ _ ≤ ((positionsIn positions t).map fun p => ⌊p.1⌋).foldl min intMax
    rw [le_foldl_min, List.forall_mem_map]
    constructor
    · intro h
      have h1 := h p hp
      have h2 := hpos p hp
      exact ⟨by omega, fun q hq => by have := h q hq; omega⟩
    · exact fun h q hq => by have := h.2 q hq; omega
  unfold OffRange
  rw [hleft, hright]
  simp only [clipLow, clipHigh, bilinearInterpolationKernelSize] at *
  omega

/-- What `PositionCompute` returns: no rectangle, for one of four reasons, or the clipped bounds. -/
inductive Clipped (positions : SlavePositions T) (swath : SlaveSubSwath) (sBurstIndex : Int)
    (t : Rectangle) : Rectangle → Prop where
  | noBurst (h : ¬ (0 ≤ sBurstIndex ∧ sBurstIndex < swath.numOfBursts)) :
      Clipped positions swath sBurstIndex t ⟨0, 0, 0, 0⟩
  | noPosition (h : ∀ p ∈ tilePixels t, notNull positions p.1 p.2 = false) :
      Clipped positions swath sBurstIndex t ⟨0, 0, 0, 0⟩
  | noColumn (h : clipLow (coordMinMax positions t).xMin 0 >
        clipHigh (coordMinMax positions t).xMax (swath.samplesPerBurst - 1)) :
      Clipped positions swath sBurstIndex t ⟨0, 0, 0, 0⟩
  | noLine (h : clipLow (coordMinMax positions t).yMin (sBurstIndex * swath.linesPerBurst) >
        clipHigh (coordMinMax positions t).yMax
          (sBurstIndex * swath.linesPerBurst + swath.linesPerBurst - 1)) :
      Clipped positions swath sBurstIndex t ⟨0, 0, 0, 0⟩
  | area (r : Rectangle) (hburst : 0 ≤ sBurstIndex ∧ sBurstIndex < swath.numOfBursts)
      (hx : r.x = clipLow (coordMinMax positions t).xMin 0)
      (hx' : r.x + r.width - 1 =
        clipHigh (coordMinMax positions t).xMax (swath.samplesPerBurst - 1))
      (hy : r.y = clipLow (coordMinMax positions t).yMin (sBurstIndex * swath.linesPerBurst))
      (hy' : r.y + r.height - 1 = clipHigh (coordMinMax positions t).yMax
        (sBurstIndex * swath.linesPerBurst + swath.linesPerBurst - 1))
      (hw : 0 < r.width) (hh : 0 < r.height) : Clipped positions swath sBurstIndex t r

theorem rectangleFromInclusiveBounds_of_le {xMin xMax yMin yMax : Int} (hx : xMin ≤ xMax)
    (hy : yMin ≤ yMax) (hw : xMax - xMin + 1 ≤ intMax) (hh : yMax - yMin + 1 ≤ intMax) :
    rectangleFromInclusiveBounds xMin xMax yMin yMax =
      .ok ⟨xMin, yMin, xMax - xMin + 1, yMax - yMin + 1⟩ := by
  refine (if_neg (by omega)).trans ?_
  dsimp only
  rw [Outcome.require_of (by omega)]
  rfl

/-- A burst of the sub-swath lies in the raster, so its line indices fit an `int`. -/
theorem lastLine_le {sBurstIndex : Int} (h0 : 0 ≤ sBurstIndex)
    (h : sBurstIndex < swath.numOfBursts) :
    0 ≤ sBurstIndex * swath.linesPerBurst ∧
      sBurstIndex * swath.linesPerBurst + swath.linesPerBurst ≤ intMax := by
  have hlines := swath.lines_pos
  have hle : (sBurstIndex + 1) * swath.linesPerBurst ≤ swath.numOfBursts * swath.linesPerBurst :=
    Int.mul_le_mul_of_nonneg_right (by omega) (by omega)
  rw [Int.add_mul, Int.one_mul] at hle
  exact ⟨Int.mul_nonneg h0 (by omega), le_trans hle swath.lines_fit⟩

theorem positionCompute_clipped (positions : SlavePositions T) (swath : SlaveSubSwath)
    (sBurstIndex : Int) (t : Rectangle) :
    ∃ r, positionCompute positions swath sBurstIndex t = .ok r ∧
      Clipped positions swath sBurstIndex t r := by
  unfold positionCompute
  split_ifs with hburst hany
  · exact ⟨_, rfl, .noBurst (by omega)⟩
  · show ∃ r, rectangleFromInclusiveBounds (clipLow (coordMinMax positions t).xMin 0)
        (clipHigh (coordMinMax positions t).xMax (swath.samplesPerBurst - 1))
        (clipLow (coordMinMax positions t).yMin (sBurstIndex * swath.linesPerBurst))
        (clipHigh (coordMinMax positions t).yMax
          (sBurstIndex * swath.linesPerBurst + swath.linesPerBurst - 1)) = .ok r ∧ _
    rcases Int.lt_or_le (clipHigh (coordMinMax positions t).xMax (swath.samplesPerBurst - 1))
        (clipLow (coordMinMax positions t).xMin 0) with hcol | hcol
    · exact ⟨_, if_pos (.inl hcol), .noColumn hcol⟩
    rcases Int.lt_or_le (clipHigh (coordMinMax positions t).yMax
          (sBurstIndex * swath.linesPerBurst + swath.linesPerBurst - 1))
        (clipLow (coordMinMax positions t).yMin (sBurstIndex * swath.linesPerBurst))
        with hline | hline
    · exact ⟨_, if_pos (.inr hline), .noLine hline⟩
    -- both ranges have a part in the burst, which an `int` can measure
    have hsamples := swath.samples_fit
    obtain ⟨hfirst, hlast⟩ := lastLine_le (show 0 ≤ sBurstIndex by omega)
      (show sBurstIndex < swath.numOfBursts by omega)
    have hw : clipHigh (coordMinMax positions t).xMax (swath.samplesPerBurst - 1) -
        clipLow (coordMinMax positions t).xMin 0 + 1 ≤ intMax := by
      unfold clipHigh clipLow
      omega
    have hh : clipHigh (coordMinMax positions t).yMax
          (sBurstIndex * swath.linesPerBurst + swath.linesPerBurst - 1) -
        clipLow (coordMinMax positions t).yMin (sBurstIndex * swath.linesPerBurst) + 1 ≤
          intMax := by
      unfold clipHigh clipLow
      omega
    refine ⟨_, rectangleFromInclusiveBounds_of_le hcol hline hw hh,
      .area _ (by omega) rfl ?_ rfl ?_ ?_ ?_⟩ <;> dsimp only <;> omega
  · refine ⟨_, rfl, .noPosition fun p hp => ?_⟩
    rw [List.any_eq_true] at hany
    exact eq_false_of_ne_true fun htrue => hany ⟨p, hp, htrue⟩

theorem checkedPixelCount_of_le {r : Rectangle} (hw : 0 ≤ r.width) (hh : 0 ≤ r.height)
    (harea : r.width * r.height ≤ 2305843009213693951) :
    checkedPixelCount r = .ok (r.width * r.height) := by
  unfold checkedPixelCount
  rw [Outcome.require_of (by omega), Outcome.ok_bind]
  split_ifs with hzero
  · rcases hzero with h | h
    · rw [h, Int.zero_mul]
      rfl
    · rw [h, Int.mul_zero]
      rfl
  · have hle : r.width ≤ 2305843009213693951 / r.height :=
      (Int.le_ediv_iff_mul_le (by omega)).mpr harea
    rw [Outcome.require_of (by omega)]
    rfl

end Bounds

/-! ## Reading the rectangle -/

variable [IsStrictOrderedRing T]

/-- **The kernel reads its rectangle only.** The clamped indices lie in the buffer, and the value is
that of the image whose edge is the edge of the rectangle. -/
theorem resampleNoDem_cutOut {r : Rectangle} (hw : 0 < r.width) (hh : 0 < r.height)
    (image : Int → Int → T) (noValue x y : T) :
    resampleNoDem (getSamples (cutOut r image) r.width noValue false)
      (computeIndex (x - r.x + 1 / 2) (y - r.y + 1 / 2) r.width r.height) =
    .ok (bilinear (replicateEdge r.x (r.x + r.width - 1) r.y (r.y + r.height - 1) image) x y) := by
  have hread : ∀ i j : Int,
      vectorIndex (cutOut r image)
        (r.width * clampTo 0 (r.height - 1) (j - r.y) + clampTo 0 (r.width - 1) (i - r.x)) =
      .ok (replicateEdge r.x (r.x + r.width - 1) r.y (r.y + r.height - 1) image i j) := by
    intro i j
    obtain ⟨hi, hi'⟩ := clampTo_mem (show 0 ≤ r.width - 1 by omega) (i - r.x)
    obtain ⟨hj, hj'⟩ := clampTo_mem (show 0 ≤ r.height - 1 by omega) (j - r.y)
    rw [cutOut, vectorIndex_rowMajor hi (by omega) hj (by omega)]
    have hcol := clampTo_add 0 (r.width - 1) (i - r.x) r.x
    have hrow := clampTo_add 0 (r.height - 1) (j - r.y) r.y
    rw [Int.sub_add_cancel, Int.zero_add, show r.width - 1 + r.x = r.x + r.width - 1 by omega]
      at hcol
    rw [Int.sub_add_cancel, Int.zero_add, show r.height - 1 + r.y = r.y + r.height - 1 by omega]
      at hrow
    rw [replicateEdge, hcol, hrow, Int.add_comm r.x, Int.add_comm r.y]
  rw [computeIndex_add_half, Int.floor_sub_intCast, Int.floor_sub_intCast,
    Int.fract_sub_intCast, Int.fract_sub_intCast, show ⌊x⌋ - r.x + 1 = ⌊x⌋ + 1 - r.x by omega,
    show ⌊y⌋ - r.y + 1 = ⌊y⌋ + 1 - r.y by omega]
  simp only [resampleNoDem, getSamples, hread, Outcome.ok_bind, Outcome.pure_eq,
    Bool.false_eq_true, false_and, not_false_eq_true, decide_true, if_true]
  rfl

/-! ## The value of a pixel -/

/-- The position lies in the lines of the slave burst. -/
def InBurst (y : T) : Prop :=
  y ≥ ((swath.linesPerBurst * sBurstIndex : Int) : T) ∧
    y < ((swath.linesPerBurst * (sBurstIndex + 1) : Int) : T)

instance (y : T) : Decidable (InBurst swath sBurstIndex y) :=
  inferInstanceAs (Decidable (_ ∧ _))

/-- The slave burst at a position, with its edge repeated beyond it. -/
def slaveValue (x y : T) : T × T :=
  let whole := replicateEdge 0 (swath.samplesPerBurst - 1) (sBurstIndex * swath.linesPerBurst)
    (sBurstIndex * swath.linesPerBurst + swath.linesPerBurst - 1)
  reramp sincos disableReramp (bilinear (whole demod.phase) x y) (bilinear (whole demod.i) x y)
    (bilinear (whole demod.q) x y)

/-- The value of a pixel by its position alone. -/
def pixelValue (px py : Int) : T × T :=
  let p := elevationMask positions px py
  if (0 ≤ sBurstIndex ∧ sBurstIndex < swath.numOfBursts) ∧ notNull positions px py = true ∧
      InBurst swath sBurstIndex p.2 then
    slaveValue sincos swath sBurstIndex demod disableReramp p.1 p.2
  else (0, 0)

section Values

variable {positions sincos swath sBurstIndex demod disableReramp}

omit [IsStrictOrderedRing T] in
theorem inBurst_iff {y : T} : InBurst swath sBurstIndex y ↔
    sBurstIndex * swath.linesPerBurst ≤ ⌊y⌋ ∧
      ⌊y⌋ < sBurstIndex * swath.linesPerBurst + swath.linesPerBurst := by
  unfold InBurst
  rw [ge_iff_le, ← Int.le_floor, ← Int.floor_lt, Int.mul_add, Int.mul_one,
    Int.mul_comm swath.linesPerBurst]

/-- The rectangle of a tile around the position `(x, y)`: what it cuts off, the clamping to the
burst does not use. -/
structure Surrounds (swath : SlaveSubSwath) (sBurstIndex : Int) (r : Rectangle) (x y : T) :
    Prop where
  width_pos : 0 < r.width
  height_pos : 0 < r.height
  column : ∀ n, n = ⌊x⌋ ∨ n = ⌊x⌋ + 1 →
    clampTo r.x (r.x + r.width - 1) n = clampTo 0 (swath.samplesPerBurst - 1) n
  row : ∀ n, n = ⌊y⌋ ∨ n = ⌊y⌋ + 1 →
    clampTo r.y (r.y + r.height - 1) n =
      clampTo (sBurstIndex * swath.linesPerBurst)
        (sBurstIndex * swath.linesPerBurst + swath.linesPerBurst - 1) n

/-- Bounds of the tile, widened and clipped, clamp the cell of every position in the tile as the
whole does. -/
theorem clampTo_clipped {lo hi mn mx f n : Int} (hmn : mn ≤ f) (hmx : f ≤ mx)
    (hab : clipLow mn lo ≤ clipHigh mx hi) (hn : n = f ∨ n = f + 1) :
    clampTo (clipLow mn lo) (clipHigh mx hi) n = clampTo lo hi n := by
  unfold clipLow clipHigh bilinearInterpolationKernelSize at *
  apply clampTo_window
  · omega
  · omega
  · exact hab
  · omega
  · omega

theorem coreCompute_of_surrounds {r : Rectangle} {x y : T}
    (h : Surrounds swath sBurstIndex r x y) (hx : x ≠ invalidIndex)
    (hy : InBurst swath sBurstIndex y) :
    coreCompute sincos swath sBurstIndex demod disableReramp r x y =
      .ok (slaveValue sincos swath sBurstIndex demod disableReramp x y) := by
  have hedge : ∀ image : Int → Int → T,
      bilinear (replicateEdge r.x (r.x + r.width - 1) r.y (r.y + r.height - 1) image) x y =
      bilinear (replicateEdge 0 (swath.samplesPerBurst - 1) (sBurstIndex * swath.linesPerBurst)
        (sBurstIndex * swath.linesPerBurst + swath.linesPerBurst - 1) image) x y := by
    intro image
    simp only [bilinear, replicateEdge, h.column _ (.inl rfl), h.column _ (.inr rfl),
      h.row _ (.inl rfl), h.row _ (.inr rfl)]
  have hin : ¬ ((x = invalidIndex ∧ y = invalidIndex) ∨ ¬ InBurst swath sBurstIndex y) :=
    not_or.mpr ⟨fun hinv => hx hinv.1, not_not.mpr hy⟩
  refine (if_neg hin).trans ?_
  simp only [resampleNoDem_cutOut h.width_pos h.height_pos, Outcome.ok_bind, hedge]
  rfl

omit [IsStrictOrderedRing T] in
theorem coreCompute_of_not {r : Rectangle} {x y : T}
    (h : (x = invalidIndex ∧ y = invalidIndex) ∨ ¬ InBurst swath sBurstIndex y) :
    coreCompute sincos swath sBurstIndex demod disableReramp r x y = .ok (0, 0) := by
  exact if_pos h

omit [IsStrictOrderedRing T] in
theorem Clipped.surrounds {t r : Rectangle} {p : T × T} (hp : p ∈ positionsIn positions t)
    (h : Clipped positions swath sBurstIndex t r) (hw : 0 < r.width) :
    Surrounds swath sBurstIndex r p.1 p.2 := by
  cases h with
  | noBurst _ => exact absurd hw (by decide)
  | noPosition _ => exact absurd hw (by decide)
  | noColumn _ => exact absurd hw (by decide)
  | noLine _ => exact absurd hw (by decide)
  | area _ hburst hx hx' hy hy' hw hh =>
    exact {
      width_pos := hw
      height_pos := hh
      column := fun n hn => by
        rw [hx', hx]
        exact clampTo_clipped (xMin_le hp) (le_xMax hp) (by omega) hn
      row := fun n hn => by
        rw [hy', hy]
        exact clampTo_clipped (yMin_le hp) (le_yMax hp) (by omega) hn }

omit [IsStrictOrderedRing T] in
/-- The rectangle is part of one burst, so it can be allocated. -/
theorem Clipped.checkedPixelCount {t r : Rectangle} (h : Clipped positions swath sBurstIndex t r) :
    checkedPixelCount r = .ok (r.width * r.height) := by
  cases h with
  | noBurst _ => rfl
  | noPosition _ => rfl
  | noColumn _ => rfl
  | noLine _ => rfl
  | area _ hburst hx hx' hy hy' hw hh =>
    have hcols : r.width ≤ swath.samplesPerBurst := by
      unfold clipLow at hx
      unfold clipHigh at hx'
      omega
    have hrows : r.height ≤ swath.linesPerBurst := by
      unfold clipLow at hy
      unfold clipHigh at hy'
      omega
    apply checkedPixelCount_of_le (by omega) (by omega)
    calc r.width * r.height ≤ swath.samplesPerBurst * swath.linesPerBurst :=
          Int.mul_le_mul hcols hrows (by omega) (by omega)
      _ ≤ 2305843009213693951 := swath.burst_fits

omit [IsStrictOrderedRing T] in
/-- A pixel of the burst whose tile is not off range has a rectangle. -/
theorem Clipped.width_pos {t r : Rectangle} {px py : Int} {p : T × T}
    (h : Clipped positions swath sBurstIndex t r) (hpix : t.Contains px py)
    (hburst : 0 ≤ sBurstIndex ∧ sBurstIndex < swath.numOfBursts)
    (hnull : notNull positions px py = true) (hp : p ∈ positionsIn positions t)
    (hin : InBurst swath sBurstIndex p.2) (hrange : ¬ OffRange positions swath t) :
    0 < r.width ∧ 0 < r.height := by
  cases h with
  | noBurst hno => exact absurd hburst hno
  | noPosition hno => exact absurd hnull (by rw [hno (px, py) (mem_tilePixels.mpr hpix)]; decide)
  | noColumn hno => exact absurd ((offRange_iff (List.ne_nil_of_mem hp)).mpr hno) hrange
  | noLine hno =>
    -- the line of the pixel itself lies between the clipped bounds
    obtain ⟨hfirst, hlast⟩ := inBurst_iff.mp hin
    have hmin := yMin_le hp
    have hmax := le_yMax hp
    unfold clipLow clipHigh bilinearInterpolationKernelSize at hno
    omega
  | area _ _ _ _ _ _ hw hh => exact ⟨hw, hh⟩

/-- **The value of a pixel in a tile.** -/
theorem tileValue_eq {t : Rectangle} {px py : Int} (hpix : t.Contains px py) :
    tileValue positions sincos swath sBurstIndex demod disableReramp t px py =
      .ok (if OffRange positions swath t then (0, 0)
        else pixelValue positions sincos swath sBurstIndex demod disableReramp px py) := by
  obtain ⟨r, hr, hclip⟩ := positionCompute_clipped positions swath sBurstIndex t
  simp only [tileValue, hr, hclip.checkedPixelCount, Outcome.ok_bind]
  by_cases hvalue : (0 ≤ sBurstIndex ∧ sBurstIndex < swath.numOfBursts) ∧
      notNull positions px py = true ∧
      InBurst swath sBurstIndex (elevationMask positions px py).2
  · obtain ⟨hburst, hnull, hin⟩ := hvalue
    obtain ⟨p, hpos, hmask, hx⟩ := notNull_eq_true hnull
    have hp := mem_positionsIn hpix hpos
    rw [hmask] at hin
    have hvalue : pixelValue positions sincos swath sBurstIndex demod disableReramp px py =
        slaveValue sincos swath sBurstIndex demod disableReramp p.1 p.2 := by
      simp only [pixelValue, hmask]
      exact if_pos ⟨hburst, hnull, hin⟩
    rw [hvalue, hmask]
    by_cases hrange : OffRange positions swath t
    -- no column of the tile reaches the burst, so there is no rectangle
    · have hcol := (offRange_iff (List.ne_nil_of_mem hp)).mp hrange
      have hnone : ¬ (r.width > 0 ∧ r.height > 0) := by
        intro harea
        cases hclip with
        | area _ _ hx hx' => omega
        | _ => exact absurd harea.1 (by decide)
      rw [if_pos hrange, if_neg hnone]
      rfl
    · have harea : r.width > 0 ∧ r.height > 0 :=
        hclip.width_pos hpix hburst hnull hp hin hrange
      rw [if_neg hrange, if_pos harea]
      exact coreCompute_of_surrounds (hclip.surrounds hp harea.1) hx hin
  -- without a position in the burst, the kernel and the worker write the same value
  · have hzero : pixelValue positions sincos swath sBurstIndex demod disableReramp px py = (0, 0) :=
      if_neg hvalue
    rw [hzero, ite_self]
    split_ifs with hpos
    · apply coreCompute_of_not
      cases hnull : notNull positions px py with
      | false =>
        rw [notNull_eq_false hnull]
        exact .inl ⟨rfl, rfl⟩
      | true =>
        right
        intro hin
        cases hclip with
        | area _ hburst => exact hvalue ⟨hburst, hnull, hin⟩
        | _ => exact absurd hpos.1 (by decide)
    · rfl

end Values

/-- The pixel has no position, or one whose column the kernel can reach from the burst. -/
def InReach (px py : Int) : Prop :=
  ∀ p, positions.interpolated px py = some p →
    -bilinearInterpolationKernelSize ≤ ⌊p.1⌋ ∧
      ⌊p.1⌋ ≤ swath.samplesPerBurst - 1 + bilinearInterpolationKernelSize

omit [IsStrictOrderedRing T] in
variable {positions swath} in
/-- A tile of a pixel in reach is off range only when the pixel has no position. -/
theorem InReach.pixelValue_of_offRange {t : Rectangle} {px py : Int}
    (hreach : InReach positions swath px py) (hpix : t.Contains px py)
    (hrange : OffRange positions swath t) :
    pixelValue positions sincos swath sBurstIndex demod disableReramp px py = (0, 0) := by
  cases hpos : positions.interpolated px py with
  | none =>
    have hnull : notNull positions px py = false := by
      unfold notNull
      rw [hpos]
    refine if_neg fun hvalue => ?_
    exact absurd hvalue.2.1 (by rw [hnull]; decide)
  | some p =>
    have hp := mem_positionsIn hpix hpos
    obtain ⟨hlo, hhi⟩ := hreach p hpos
    rcases hrange with hleft | hright
    · exact absurd (hleft p hp) (by omega)
    · exact absurd (hright p hp) (by omega)

/-- **Resampling, tile by tile.** A pixel has the value of its position alone in every tile but
those that are off range as a whole, which get no data; no sample outside the rectangle is read.
Pixels in reach have the same value under every partition. -/
theorem slaveRectangle_value :
    (∀ (t : Rectangle) (px py : Int), t.Contains px py →
      tileValue positions sincos swath sBurstIndex demod disableReramp t px py =
        .ok (if OffRange positions swath t then (0, 0)
          else pixelValue positions sincos swath sBurstIndex demod disableReramp px py)) ∧
    ∀ (width height : Int) (tiles : List Rectangle) (start : Int → Int → Outcome (T × T))
      (px py : Int), IsPartition width height tiles → 0 ≤ px → px < width → 0 ≤ py →
      py < height → InReach positions swath px py →
      image (tileValue positions sincos swath sBurstIndex demod disableReramp) start tiles px py =
        .ok (pixelValue positions sincos swath sBurstIndex demod disableReramp px py) := by
  refine ⟨fun t px py hpix => tileValue_eq hpix, ?_⟩
  intro width height tiles start px py hpart hx hx' hy hy' hreach
  obtain ⟨t, ht, hpix⟩ := hpart.covers px py hx hx' hy hy'
  rw [image_of_contains _ hpart.disjoint ht hpix, tileValue_eq hpix]
  by_cases hrange : OffRange positions swath t
  · rw [if_pos hrange,
      hreach.pixelValue_of_offRange sincos sBurstIndex demod disableReramp hpix hrange]
  · rw [if_neg hrange]

end Geometry

/-! ## A position beyond the columns -/

/-- A burst of one sample. -/
def oneSample : SlaveSubSwath where
  numOfBursts := 1
  linesPerBurst := 1
  samplesPerBurst := 1
  lines_pos := Int.one_pos
  samples_pos := Int.one_pos
  lines_fit := by decide
  samples_fit := by decide
  burst_fits := by decide

/-- The pixel `0` lies ten samples to the right of the burst, every other pixel on it. -/
def farAndNear : SlavePositions ℚ where
  interpolated px _ := if px = 0 then some (10, 0) else some (0, 0)
  masked _ _ := false
  x_fits := by
    intro px py p h
    split_ifs at h
    · obtain rfl := Option.some.inj h
      decide +kernel
    · obtain rfl := Option.some.inj h
      decide +kernel
  y_fits := by
    intro px py p h
    split_ifs at h
    · obtain rfl := Option.some.inj h
      decide +kernel
    · obtain rfl := Option.some.inj h
      decide +kernel

def fives : Demod ℚ := ⟨fun _ _ => 0, fun _ _ => 5, fun _ _ => 0⟩

def cosOne (_ : ℚ) : ℚ × ℚ := (0, 1)

theorem slaveRectangle_value_two :
    tileValue farAndNear cosOne oneSample 0 fives false ⟨0, 0, 2, 1⟩ 0 0 = .ok (5, 0) := by
  have hpix : (⟨0, 0, 2, 1⟩ : Rectangle).Contains 0 0 := by decide
  rw [(slaveRectangle_value farAndNear cosOne oneSample 0 fives false).1 _ _ _ hpix]
  decide +kernel

/-- The same pixel, in a tile of its own and next to a pixel in reach. -/
theorem not_tileValue_unique :
    ¬ ∀ (t t' : Rectangle) (px py : Int), t.Contains px py → t'.Contains px py →
      tileValue farAndNear cosOne oneSample 0 fives false t px py =
        tileValue farAndNear cosOne oneSample 0 fives false t' px py := by
  intro h
  have hsame := h (Rectangle.unit 0 0) ⟨0, 0, 2, 1⟩ 0 0 (by decide) (by decide)
  rw [tileValue_eq (by decide), tileValue_eq (by decide)] at hsame
  revert hsame
  decide +kernel

end Alus.Backgeocoding
