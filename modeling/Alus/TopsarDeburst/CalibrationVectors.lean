import Alus.Lib.Binary32
import Alus.Lib.NumberedLists
import Alus.TopsarDeburst.RowCopy

/-!
# The calibration vectors of a debursted product

`TOPSARDeburstOp::UpdateCalibrationVector` puts the calibration vectors of the sub-swaths together.
From each sub-swath it takes the pixels of an interval that ends in the middle of the overlap with
the next one. `GetMergedPixels` merges the pixels once, from the vectors at index 0;
`GetMergedVector` merges the values of each vector by the pixels of that vector. The pixels that are
written are places in the target raster.

A list of numbers stands for its text, in which a blank follows each number. An entry of a merged
list is described by what it was taken from.
-/

namespace Alus.TopsarDeburst

open Alus.Lib
open Outcome (require collect)

/-! ## Calibration vectors -/

/-- The lists of values of a calibration vector. -/
inductive CalibrationUnit where
  | sigmaNought
  | betaNought
  | gamma
  | dn
  deriving DecidableEq, Repr

/-- An element that holds a list and says how many entries it has. -/
structure CountedList (α : Type) where
  count : Int
  values : List α

/-- A calibration vector, as far as it is merged. -/
structure CalibrationVector (P V : Type) where
  pixel : CountedList P
  unit : CalibrationUnit → CountedList V

/-- An entry of the merged pixels, with the pixel of the sub-swath that it stands for. -/
structure MergedPixel where
  subSwath : Nat
  pixel : Int
  targetPixelIdx : Int
  deriving DecidableEq, Repr

/-- An entry of a merged list of values, taken from the given place of the list of the sub-swath. -/
structure MergedValue where
  subSwath : Nat
  index : Nat
  value : ℚ
  deriving DecidableEq, Repr

/-- A calibration element of the target. -/
structure CalibrationElement where
  name : List Char
  polarisation : List Char
  vectors : List (CalibrationVector MergedPixel MergedValue)

/-- `ValidateMetadataCount`. -/
def validateMetadataCount (declaredCount : Int) (parsedCount : Nat) : Outcome PUnit :=
  require (¬ (declaredCount < 0 ∨ (parsedCount : Int) ≠ declaredCount))

/-- The operator with the metadata of its source product. The sub-swaths are numbered from near to
far range, and so are their valid pixels. `bandCalibration` is the list of vectors of the first
calibration element, `calibrationVectorList` that of a sub-swath and a polarisation. -/
structure CalibrationSource (T : Type) [Field T] [LinearOrder T] where
  op : TOPSARDeburstOp T
  mission : List Char
  acquisitionMode : List Char
  productType : List Char
  polarizations : List (List Char)
  bandCalibration : List (CalibrationVector Int ℚ)
  calibrationVectorList : Nat → List Char → Outcome (List (CalibrationVector Int ℚ))
  ordered : op.subSwaths.Pairwise fun s s' =>
    s.slrTimeToFirstValidPixel ≤ s'.slrTimeToFirstValidPixel ∧
      s.slrTimeToLastValidPixel ≤ s'.slrTimeToLastValidPixel

namespace CalibrationSource

variable {T : Type} [Field T] [LinearOrder T] [IsStrictOrderedRing T] [FloorRing T]
  (src : CalibrationSource T)

/-! ## The effective pixels of the sub-swaths -/

def numOfSubSwath : Nat := src.op.subSwaths.length

/-- `su_->subswath_.at(s)`, for a sub-swath that there is. -/
def subSwath (s : Nat) : SubSwathInfo T := src.op.subSwaths.getD s src.op.first

/-- `mid_time` between two sub-swaths. -/
def midTime (s s' : Nat) : T :=
  ((src.subSwath s).slrTimeToLastValidPixel + (src.subSwath s').slrTimeToFirstValidPixel) / 2

/-- `x_min` of `ComputeSubSwathEffectStartEndPixels`. -/
def xMin (s : Nat) : Int :=
  if s = 0 then 0
  else stdRound ((src.midTime (s - 1) s - (src.subSwath s).slrTimeToFirstPixel) /
    src.op.targetDeltaSlantRangeTime)

/-- `x_max` of `ComputeSubSwathEffectStartEndPixels`. -/
def xMax (s : Nat) : Int :=
  if s + 1 < src.numOfSubSwath then
    stdRound ((src.midTime s (s + 1) - (src.subSwath s).slrTimeToFirstPixel) /
      src.op.targetDeltaSlantRangeTime)
  else
    stdRound (((src.subSwath s).slrTimeToLastPixel - (src.subSwath s).slrTimeToFirstPixel) /
      src.op.targetDeltaSlantRangeTime)

/-- The pixel of the sub-swath is taken. -/
def Effective (s : Nat) (p : Int) : Prop := p ≥ src.xMin s ∧ p < src.xMax s

instance (s : Nat) (p : Int) : Decidable (src.Effective s p) := inferInstanceAs (Decidable (_ ∧ _))

/-- Where the pixel of the sub-swath lies in the target, counted in columns. -/
def targetPosition (s : Nat) (p : Int) : T :=
  ((src.subSwath s).slrTimeToFirstPixel + (p : T) * src.op.targetDeltaSlantRangeTime -
    src.op.targetSlantRangeTimeToFirstPixel) / src.op.targetDeltaSlantRangeTime

/-- `target_pixel_idx`. -/
def targetPixelIdx (s : Nat) (p : Int) : Int := stdRound (src.targetPosition s p)

/-! ## The vectors of the source -/

/-- `Sentinel1Utils::GetCalibrationPixel`, with sub-swaths counted from 0. -/
def getCalibrationPixel (s : Nat) (pol : List Char) (vectorIndex : Nat) : Outcome (List Int) := do
  let list ← src.calibrationVectorList s pol
  let vector ← vectorAt list vectorIndex
  validateMetadataCount vector.pixel.count vector.pixel.values.length
  return vector.pixel.values

/-- `Sentinel1Utils::GetCalibrationVector`. The numbers are read as `float`; the names of elements
are compared without case, so `SigmaNought` is found as well. -/
def getCalibrationVector (s : Nat) (pol : List Char) (vectorIndex : Nat) (unit : CalibrationUnit) :
    Outcome (List ℚ) := do
  let list ← src.calibrationVectorList s pol
  let vector ← vectorAt list vectorIndex
  validateMetadataCount (vector.unit unit).count (vector.unit unit).values.length
  return (vector.unit unit).values.map Binary32.round

/-! ## The merge -/

/-- The entry for a pixel. -/
def mergedPixel (s : Nat) (p : Int) : MergedPixel := ⟨s, p, src.targetPixelIdx s p⟩

/-- A round of the loop of `GetMergedPixels`. -/
def swathPixels (pol : List Char) (s : Nat) : Outcome (List MergedPixel) := do
  let pixelArray ← src.getCalibrationPixel s pol 0
  return (pixelArray.filter fun p => src.Effective s p).map (src.mergedPixel s)

/-- `GetMergedPixels`. -/
def getMergedPixels (pol : List Char) : Outcome (List MergedPixel) := do
  let lists ← collect ((List.range src.numOfSubSwath).map (src.swathPixels pol))
  return lists.flatten

/-- The inner loop of `GetMergedVector`: the values at the effective pixels of one sub-swath. -/
def effectiveValues (s : Nat) (pixelArray : List Int) (vectorArray : List ℚ) :
    Outcome (List MergedValue) :=
  collect ((pixelArray.zipIdx.filter fun entry => src.Effective s entry.1).map fun entry => do
    let value ← vectorAt vectorArray entry.2
    return ⟨s, entry.2, Binary32.streamed value⟩)

/-- A round of the loop of `GetMergedVector`. -/
def swathValues (unit : CalibrationUnit) (pol : List Char) (vectorIndex s : Nat) :
    Outcome (List MergedValue) := do
  let pixelArray ← src.getCalibrationPixel s pol vectorIndex
  let vectorArray ← src.getCalibrationVector s pol vectorIndex unit
  src.effectiveValues s pixelArray vectorArray

/-- `GetMergedVector`. -/
def getMergedVector (unit : CalibrationUnit) (pol : List Char) (vectorIndex : Nat) :
    Outcome (List MergedValue) := do
  let lists ← collect ((List.range src.numOfSubSwath).map (src.swathValues unit pol vectorIndex))
  return lists.flatten

/-- What the loop over the vectors writes to one of them. The count is that of the merged pixels. -/
def updateVector (pol : List Char) (mergedPixels : List MergedPixel) (vectorIndex : Nat) :
    Outcome (CalibrationVector MergedPixel MergedValue) := do
  let sigmaNought ← src.getMergedVector .sigmaNought pol vectorIndex
  let betaNought ← src.getMergedVector .betaNought pol vectorIndex
  let gamma ← src.getMergedVector .gamma pol vectorIndex
  let dn ← src.getMergedVector .dn pol vectorIndex
  return {
    pixel := ⟨mergedPixels.length, mergedPixels⟩
    unit := fun
      | .sigmaNought => ⟨mergedPixels.length, sigmaNought⟩
      | .betaNought => ⟨mergedPixels.length, betaNought⟩
      | .gamma => ⟨mergedPixels.length, gamma⟩
      | .dn => ⟨mergedPixels.length, dn⟩ }

/-- `GetMissionPrefix`. -/
def getMissionPrefix : Outcome (List Char) := do
  let last ← vectorAt src.mission ((src.mission.length : Int) - 1)
  return "S1".toList ++ [last]

/-- The element of a polarisation: the one of the first band with merged vectors. -/
def updatePolarization (missionPrefix pol : List Char) : Outcome CalibrationElement := do
  let mergedPixels ← src.getMergedPixels pol
  let vectors ←
    collect ((List.range src.bandCalibration.length).map (src.updateVector pol mergedPixels))
  return {
    name := missionPrefix.map Char.toLower ++ "-".toList ++ src.acquisitionMode ++ "-".toList ++
      src.productType ++ "-".toList ++ pol
    polarisation := pol
    vectors := vectors }

/-- `UpdateCalibrationVector`, as the elements of the new calibration metadata. -/
def updateCalibrationVector : Outcome (List CalibrationElement) := do
  let missionPrefix ← src.getMissionPrefix
  collect (src.polarizations.map (src.updatePolarization missionPrefix))

/-! ## What the merged vectors should be -/

/-- The value is that of the pixel, in the vector at the given index. -/
def IsValueOf (pol : List Char) (vectorIndex : Nat) (unit : CalibrationUnit) (value : MergedValue)
    (pixel : MergedPixel) : Prop :=
  value.subSwath = pixel.subSwath ∧
    ∃ pixelArray vectorArray,
      src.getCalibrationPixel pixel.subSwath pol vectorIndex = .ok pixelArray ∧
      src.getCalibrationVector pixel.subSwath pol vectorIndex unit = .ok vectorArray ∧
      pixelArray[value.index]? = some pixel.pixel ∧
      vectorArray[value.index]? = some (Binary32.round value.value)

/-- The pixels of every vector of the source ascend. -/
def SourceAscends (pol : List Char) : Prop :=
  ∀ s < src.numOfSubSwath, ∀ v < src.bandCalibration.length, ∀ pixelArray,
    src.getCalibrationPixel s pol v = .ok pixelArray → pixelArray.Pairwise (· < ·)

/-- The vectors of the element of a polarisation have as many entries as they declare, the values
are those of the pixels, and the pixels ascend where those of the source do. -/
structure WellFormed (pol : List Char)
    (vectors : List (CalibrationVector MergedPixel MergedValue)) : Prop where
  pixelCount : ∀ vector ∈ vectors, (vector.pixel.values.length : Int) = vector.pixel.count
  unitCount : ∀ vector ∈ vectors, ∀ unit,
    ((vector.unit unit).values.length : Int) = (vector.unit unit).count
  standsFor : ∀ vector ∈ vectors, ∀ pixel ∈ vector.pixel.values,
    pixel.targetPixelIdx = src.targetPixelIdx pixel.subSwath pixel.pixel
  values : ∀ (v : Nat) vector, vectors[v]? = some vector → ∀ unit (i : Nat) pixel value,
    vector.pixel.values[i]? = some pixel → (vector.unit unit).values[i]? = some value →
      src.IsValueOf pol v unit value pixel
  ascending : src.SourceAscends pol → ∀ vector ∈ vectors,
    (vector.pixel.values.map MergedPixel.targetPixelIdx).Pairwise (· < ·)

/-- Each vector has the effective pixels of the vector at index 0. -/
def SamePixels (pol : List Char) : Prop :=
  ∀ v < src.bandCalibration.length, ∀ s < src.numOfSubSwath, ∀ pixelArray pixelArray0,
    src.getCalibrationPixel s pol v = .ok pixelArray →
    src.getCalibrationPixel s pol 0 = .ok pixelArray0 →
      (pixelArray.filter fun p => src.Effective s p) =
        pixelArray0.filter fun p => src.Effective s p

/-- The values of the effective pixels are not changed by writing them with six digits. -/
def SixDigits (pol : List Char) : Prop :=
  ∀ v < src.bandCalibration.length, ∀ s < src.numOfSubSwath, ∀ unit pixelArray vectorArray,
    src.getCalibrationPixel s pol v = .ok pixelArray →
    src.getCalibrationVector s pol v unit = .ok vectorArray →
      ∀ (i : Nat) p value, pixelArray[i]? = some p → src.Effective s p →
        vectorArray[i]? = some value →
          Binary32.round (Binary32.streamed value) = value

/-- Where both the last effective pixel of a sub-swath and the first one of a later sub-swath are
pixels of their vectors, they are not rounded to the same place in the target. -/
def BoundariesApart (pol : List Char) : Prop :=
  ∀ s s', s < s' → s' < src.numOfSubSwath → ∀ pixelArray pixelArray',
    src.getCalibrationPixel s pol 0 = .ok pixelArray →
    src.getCalibrationPixel s' pol 0 = .ok pixelArray' →
      src.xMax s - 1 ∈ pixelArray → src.xMin s ≤ src.xMax s - 1 →
      src.xMin s' ∈ pixelArray' → src.xMin s' < src.xMax s' →
        src.targetPixelIdx s (src.xMax s - 1) ≠ src.targetPixelIdx s' (src.xMin s')

/-- What the vectors of a polarisation need to be merged well. -/
structure Mergeable (pol : List Char) : Prop where
  samePixels : src.SamePixels pol
  sixDigits : src.SixDigits pol
  boundariesApart : src.bandCalibration ≠ [] → src.SourceAscends pol → src.BoundariesApart pol

variable {src}

/-! ## The boundaries of the sub-swaths -/

section Positions

omit [FloorRing T]

omit [IsStrictOrderedRing T] in
theorem subSwath_eq {s : Nat} (hs : s < src.numOfSubSwath) :
    src.subSwath s = src.op.subSwaths.get ⟨s, hs⟩ := by
  rw [subSwath, List.getD_eq_getElem?_getD, List.getElem?_eq_getElem hs]
  rfl

/-- The middles of the overlaps ascend with the sub-swaths. -/
theorem midTime_mono {s s' : Nat} (hle : s ≤ s') (hs' : s' + 1 < src.numOfSubSwath) :
    src.midTime s (s + 1) ≤ src.midTime s' (s' + 1) := by
  cases Nat.lt_or_eq_of_le hle with
  | inr heq => rw [heq]
  | inl hlt =>
    have hs : s < src.numOfSubSwath := by omega
    have hs1 : s + 1 < src.numOfSubSwath := by omega
    have hs0' : s' < src.numOfSubSwath := by omega
    have hordered := List.pairwise_iff_get.mp src.ordered
    have hlast := (hordered ⟨s, hs⟩ ⟨s', hs0'⟩ hlt).2
    have hfirst := (hordered ⟨s + 1, hs1⟩ ⟨s' + 1, hs'⟩ (Nat.succ_lt_succ hlt)).1
    rw [midTime, midTime, subSwath_eq hs, subSwath_eq hs1, subSwath_eq hs0', subSwath_eq hs']
    linarith

theorem delta_pos : 0 < src.op.targetDeltaSlantRangeTime := src.op.delta_pos

/-- The middle of the overlap with the next sub-swath, in columns of the target. -/
def boundary (src : CalibrationSource T) (s : Nat) : T :=
  (src.midTime s (s + 1) - src.op.targetSlantRangeTimeToFirstPixel) /
    src.op.targetDeltaSlantRangeTime

theorem boundary_mono {s s' : Nat} (hle : s ≤ s') (hs' : s' + 1 < src.numOfSubSwath) :
    src.boundary s ≤ src.boundary s' := by
  have hmid := midTime_mono hle hs'
  have hdelta := src.delta_pos
  unfold boundary
  gcongr

/-- A position is the distance from the first pixel of the sub-swath, in its own columns. -/
theorem targetPosition_eq (s : Nat) (p : Int) {t : T} :
    src.targetPosition s p - (t - src.op.targetSlantRangeTimeToFirstPixel) /
        src.op.targetDeltaSlantRangeTime =
      p - (t - (src.subSwath s).slrTimeToFirstPixel) / src.op.targetDeltaSlantRangeTime := by
  have hdelta := src.delta_pos.ne'
  unfold targetPosition
  field_simp
  ring

theorem targetPosition_add (s : Nat) (p k : Int) :
    src.targetPosition s (p + k) = src.targetPosition s p + k := by
  have hdelta := src.delta_pos.ne'
  unfold targetPosition
  push_cast
  field_simp
  ring

theorem targetPosition_mono (s : Nat) {p q : Int} (h : p ≤ q) :
    src.targetPosition s p ≤ src.targetPosition s q := by
  have hstep := src.targetPosition_add s p (q - p)
  have hnonneg : (0 : T) ≤ ((q - p : Int) : T) := Int.cast_nonneg_iff.mpr (by omega)
  rw [add_sub_cancel] at hstep
  linarith

end Positions

theorem targetPosition_xMax_le {s : Nat} (hs : s + 1 < src.numOfSubSwath) :
    src.targetPosition s (src.xMax s) ≤ src.boundary s + 1 / 2 := by
  have hround := (abs_le.mp (abs_stdRound_sub_le
    ((src.midTime s (s + 1) - (src.subSwath s).slrTimeToFirstPixel) /
      src.op.targetDeltaSlantRangeTime))).2
  have hposition := src.targetPosition_eq s (src.xMax s) (t := src.midTime s (s + 1))
  rw [xMax, if_pos hs] at hposition ⊢
  unfold boundary
  linarith

theorem le_targetPosition_xMin (s : Nat) :
    src.boundary s - 1 / 2 ≤ src.targetPosition (s + 1) (src.xMin (s + 1)) := by
  have hround := (abs_le.mp (abs_stdRound_sub_le
    ((src.midTime s (s + 1) - (src.subSwath (s + 1)).slrTimeToFirstPixel) /
      src.op.targetDeltaSlantRangeTime))).1
  have hposition := src.targetPosition_eq (s + 1) (src.xMin (s + 1)) (t := src.midTime s (s + 1))
  rw [xMin, if_neg (Nat.succ_ne_zero s), Nat.add_sub_cancel] at hposition ⊢
  unfold boundary
  linarith

/-- Of two pixels of one sub-swath the later one lies in a later column. -/
theorem targetPixelIdx_lt (s : Nat) {p q : Int} (h : p < q) :
    src.targetPixelIdx s p < src.targetPixelIdx s q := by
  apply stdRound_lt_stdRound
  have hone := src.targetPosition_mono s (show p + 1 ≤ q by omega)
  rw [targetPosition_add, Int.cast_one] at hone
  exact hone

/-- The last effective pixel lies at most half a column before the boundary to a later
sub-swath. -/
theorem targetPosition_last_le {s t : Nat} (hle : s ≤ t) (ht : t + 1 < src.numOfSubSwath) :
    src.targetPosition s (src.xMax s - 1) ≤ src.boundary t - 1 / 2 := by
  have hmax := src.targetPosition_xMax_le (show s + 1 < src.numOfSubSwath by omega)
  have hbetween := src.boundary_mono hle ht
  have hback := src.targetPosition_add s (src.xMax s - 1) 1
  rw [sub_add_cancel, Int.cast_one] at hback
  linarith

/-- The last effective pixel of a sub-swath does not lie behind the first one of a later one. -/
theorem boundary_between {s s' : Nat} (hlt : s < s') (hs' : s' < src.numOfSubSwath) :
    src.targetPosition s (src.xMax s - 1) ≤ src.targetPosition s' (src.xMin s') := by
  obtain ⟨t, rfl⟩ : ∃ t, s' = t + 1 := ⟨s' - 1, by omega⟩
  exact (src.targetPosition_last_le (by omega) hs').trans (src.le_targetPosition_xMin t)

/-- Effective pixels of different sub-swaths come in the order of the sub-swaths, unless both are at
the boundary. -/
theorem effective_lt {s s' : Nat} (hlt : s < s') (hs' : s' < src.numOfSubSwath) {p q : Int}
    (hp : p < src.xMax s) (hq : src.xMin s' ≤ q)
    (hinner : ¬ (p = src.xMax s - 1 ∧ q = src.xMin s')) :
    src.targetPixelIdx s p < src.targetPixelIdx s' q := by
  have hbetween := src.boundary_between hlt hs'
  apply stdRound_lt_stdRound
  rcases Int.lt_or_eq_of_le (show p ≤ src.xMax s - 1 by omega) with hbefore | hlast
  · have hstep := src.targetPosition_mono s (show p + 1 ≤ src.xMax s - 1 by omega)
    have hlater := src.targetPosition_mono s' hq
    rw [targetPosition_add, Int.cast_one] at hstep
    linarith
  · have hstep := src.targetPosition_mono s' (show src.xMin s' + 1 ≤ q by omega)
    rw [targetPosition_add, Int.cast_one] at hstep
    rw [hlast]
    linarith

/-! ## What the loops return -/

/-- The pixels of a vector, where they can be read. -/
def pixelsAt (src : CalibrationSource T) (pol : List Char) (v s : Nat) : List Int :=
  (src.getCalibrationPixel s pol v).getD []

/-- The values of a vector, where they can be read. -/
def valuesAt (src : CalibrationSource T) (pol : List Char) (unit : CalibrationUnit) (v s : Nat) :
    List ℚ :=
  (src.getCalibrationVector s pol v unit).getD []

/-- The pixels of a vector that are taken. -/
def effectivePixels (src : CalibrationSource T) (pol : List Char) (v s : Nat) : List Int :=
  (src.pixelsAt pol v s).filter fun p => src.Effective s p

/-- The pixels of the vectors at an index can be read. -/
def PixelsRead (src : CalibrationSource T) (pol : List Char) (v : Nat) : Prop :=
  ∀ s < src.numOfSubSwath, src.getCalibrationPixel s pol v = .ok (src.pixelsAt pol v s)

variable {pol : List Char} {v : Nat} {unit : CalibrationUnit}

section Loops

omit [IsStrictOrderedRing T]

theorem getMergedPixels_spec {merged : List MergedPixel}
    (h : src.getMergedPixels pol = .ok merged) :
    src.PixelsRead pol 0 ∧ merged = (List.range src.numOfSubSwath).flatMap fun s =>
      (src.effectivePixels pol 0 s).map (src.mergedPixel s) := by
  obtain ⟨lists, hlists, hflat⟩ := Outcome.bind_eq_ok.mp h
  obtain ⟨hvalues, heach⟩ := Outcome.of_collect_map hlists []
  have hread : src.PixelsRead pol 0 := by
    intro s hs
    obtain ⟨pixelArray, hpixels, -⟩ := Outcome.bind_eq_ok.mp (heach s (List.mem_range.mpr hs))
    exact Outcome.eq_ok_getD hpixels []
  refine ⟨hread, ?_⟩
  rw [← Outcome.ok.inj hflat, hvalues, ← List.flatMap_def]
  refine List.flatMap_congr fun s hs => ?_
  rw [swathPixels, hread s (List.mem_range.mp hs)]
  rfl

/-- The entry that is written for the value at a place. -/
theorem mergedValue_spec {s place : Nat} {vectorArray : List ℚ} {e : MergedValue}
    (h : (vectorAt vectorArray place >>= fun value =>
      .ok ⟨s, place, Binary32.streamed value⟩) = .ok e) :
    e.subSwath = s ∧ e.index = place ∧
      ∃ value, vectorArray[place]? = some value ∧ e.value = Binary32.streamed value := by
  obtain ⟨value, hvalue, he⟩ := Outcome.bind_eq_ok.mp h
  cases Outcome.ok.inj he
  exact ⟨rfl, rfl, value, (vectorAt_eq_ok.mp hvalue).2, rfl⟩

/-- What an entry of a merged list holds: the value at the place of an effective pixel of its
sub-swath, as it is written. -/
def IsEntry (src : CalibrationSource T) (unit : CalibrationUnit) (pol : List Char) (v : Nat)
    (e : MergedValue) : Prop :=
  ∃ p value, (src.pixelsAt pol v e.subSwath)[e.index]? = some p ∧ src.Effective e.subSwath p ∧
    (src.valuesAt pol unit v e.subSwath)[e.index]? = some value ∧
      e.value = Binary32.streamed value

/-- The pixel at the place of an entry. -/
def pixelOf (src : CalibrationSource T) (pol : List Char) (v : Nat) (e : MergedValue) : Nat × Int :=
  (e.subSwath, (src.pixelsAt pol v e.subSwath).getD e.index 0)

/-- The values taken from one sub-swath: one for each pixel that is taken. -/
theorem effectiveValues_spec {s : Nat} {values : List MergedValue}
    (h : src.effectiveValues s (src.pixelsAt pol v s) (src.valuesAt pol unit v s) = .ok values) :
    values.map (src.pixelOf pol v) = (src.effectivePixels pol v s).map (Prod.mk s) ∧
      (∀ e ∈ values, e.subSwath = s ∧ src.IsEntry unit pol v e) ∧
      ∀ (i : Nat) p, (src.pixelsAt pol v s)[i]? = some p → src.Effective s p →
        ∃ e ∈ values, e.subSwath = s ∧ e.index = i := by
  -- the values come place by place from the effective entries
  obtain ⟨hlength, hplaces⟩ := map_eq_map_iff_places.mp (Outcome.collect_eq_ok.mp h)
  -- a place of the filtered list has the index it had before
  have hentry : ∀ (i : Nat) entry,
      ((src.pixelsAt pol v s).zipIdx.filter fun entry => src.Effective s entry.1)[i]? =
          some entry →
        (src.pixelsAt pol v s)[entry.2]? = some entry.1 ∧ src.Effective s entry.1 := by
    intro i entry hi
    obtain ⟨hmem, heffective⟩ := List.mem_filter.mp (List.mem_of_getElem? hi)
    exact ⟨List.mem_zipIdx_iff_getElem?.mp hmem, of_decide_eq_true heffective⟩
  refine ⟨?_, ?_, ?_⟩
  · rw [effectivePixels, ← map_fst_filter_zipIdx (fun p => decide (src.Effective s p)) _ 0,
      List.map_map]
    refine map_eq_map_iff_places.mpr ⟨hlength.symm, fun i e entry he hi => ?_⟩
    obtain ⟨hsubSwath, hindex, -⟩ := mergedValue_spec (hplaces i entry e hi he)
    rw [pixelOf, hsubSwath, hindex, List.getD_eq_getElem?_getD, (hentry i entry hi).1]
    rfl
  · intro e he
    obtain ⟨i, hi, hget⟩ := List.mem_iff_getElem.mp he
    have hi' : i < ((src.pixelsAt pol v s).zipIdx.filter
        fun entry => src.Effective s entry.1).length := hlength ▸ hi
    have hplace := List.getElem?_eq_getElem hi'
    obtain ⟨hpixel, heffective⟩ := hentry i _ hplace
    obtain ⟨hsubSwath, hindex, value, hvalue, hwritten⟩ :=
      mergedValue_spec (hplaces i _ e hplace (hget ▸ List.getElem?_eq_getElem hi))
    refine ⟨hsubSwath, _, value, ?_, by rwa [hsubSwath], ?_, hwritten⟩
    · rw [hsubSwath, hindex]
      exact hpixel
    · rw [hsubSwath, hindex]
      exact hvalue
  · intro i p hi heffective
    have hmem : (p, i) ∈ (src.pixelsAt pol v s).zipIdx.filter
        fun entry => src.Effective s entry.1 :=
      List.mem_filter.mpr ⟨List.mem_zipIdx_iff_getElem?.mpr hi, decide_eq_true heffective⟩
    obtain ⟨k, hk, hget⟩ := List.mem_iff_getElem.mp hmem
    have hk' : k < values.length := hlength ▸ hk
    obtain ⟨hsubSwath, hindex, -⟩ := mergedValue_spec
      (hplaces k (p, i) _ (hget ▸ List.getElem?_eq_getElem hk) (List.getElem?_eq_getElem hk'))
    exact ⟨_, List.getElem_mem hk', hsubSwath, hindex⟩

theorem swathValues_spec {s : Nat} {values : List MergedValue}
    (h : src.swathValues unit pol v s = .ok values) :
    src.getCalibrationPixel s pol v = .ok (src.pixelsAt pol v s) ∧
      src.getCalibrationVector s pol v unit = .ok (src.valuesAt pol unit v s) ∧
      src.effectiveValues s (src.pixelsAt pol v s) (src.valuesAt pol unit v s) = .ok values := by
  obtain ⟨pixelArray, hpixels, h⟩ := Outcome.bind_eq_ok.mp h
  obtain ⟨vectorArray, hvector, h⟩ := Outcome.bind_eq_ok.mp h
  have hread : src.getCalibrationPixel s pol v = .ok (src.pixelsAt pol v s) :=
    Outcome.eq_ok_getD hpixels []
  have hread' : src.getCalibrationVector s pol v unit = .ok (src.valuesAt pol unit v s) :=
    Outcome.eq_ok_getD hvector []
  cases Outcome.ok.inj (hpixels.symm.trans hread)
  cases Outcome.ok.inj (hvector.symm.trans hread')
  exact ⟨hread, hread', h⟩

/-- The values of a vector can be read. -/
def ValuesRead (src : CalibrationSource T) (pol : List Char) (unit : CalibrationUnit) (v : Nat) :
    Prop :=
  ∀ s < src.numOfSubSwath,
    src.getCalibrationVector s pol v unit = .ok (src.valuesAt pol unit v s)

/-- The merged list of values of a vector: numbered by the sub-swaths, one for each pixel that is
taken. -/
structure Taken (src : CalibrationSource T) (unit : CalibrationUnit) (pol : List Char) (v : Nat)
    (values : List MergedValue) : Prop where
  pixelsRead : src.PixelsRead pol v
  valuesRead : src.ValuesRead pol unit v
  pixels : values.map (src.pixelOf pol v) =
    numbered src.numOfSubSwath (src.effectivePixels pol v)
  entries : ∀ e ∈ values, e.subSwath < src.numOfSubSwath ∧ src.IsEntry unit pol v e
  complete : ∀ s < src.numOfSubSwath, ∀ (i : Nat) p, (src.pixelsAt pol v s)[i]? = some p →
    src.Effective s p → ∃ e ∈ values, e.subSwath = s ∧ e.index = i

theorem getMergedVector_spec {values : List MergedValue}
    (h : src.getMergedVector unit pol v = .ok values) : src.Taken unit pol v values := by
  obtain ⟨lists, hlists, hflat⟩ := Outcome.bind_eq_ok.mp h
  obtain ⟨hvalues, heach⟩ := Outcome.of_collect_map hlists []
  cases Outcome.ok.inj hflat
  rw [hvalues, ← List.flatMap_def]
  have hround := fun s hs => swathValues_spec (heach s (List.mem_range.mpr hs))
  have hswath := fun s hs => effectiveValues_spec (hround s hs).2.2
  constructor
  case pixelsRead => exact fun s hs => (hround s hs).1
  case valuesRead => exact fun s hs => (hround s hs).2.1
  case pixels =>
    rw [List.map_flatMap]
    exact List.flatMap_congr fun s hs => (hswath s (List.mem_range.mp hs)).1
  case entries =>
    intro e he
    obtain ⟨s, hs, he⟩ := List.mem_flatMap.mp he
    obtain ⟨hsubSwath, hentry⟩ := (hswath s (List.mem_range.mp hs)).2.1 e he
    exact ⟨hsubSwath ▸ List.mem_range.mp hs, hentry⟩
  case complete =>
    intro s hs i p hp heffective
    obtain ⟨e, he, hplace⟩ := (hswath s hs).2.2 i p hp heffective
    exact ⟨e, List.mem_flatMap.mpr ⟨s, List.mem_range.mpr hs, he⟩, hplace⟩

/-- Every list of a merged vector declares the number of the merged pixels. -/
theorem updateVector_spec {merged : List MergedPixel}
    {vector : CalibrationVector MergedPixel MergedValue}
    (h : src.updateVector pol merged v = .ok vector) :
    vector.pixel = ⟨merged.length, merged⟩ ∧
      ∀ unit, (vector.unit unit).count = merged.length ∧
        src.Taken unit pol v (vector.unit unit).values := by
  obtain ⟨sigmaNought, hsigma, h⟩ := Outcome.bind_eq_ok.mp h
  obtain ⟨betaNought, hbeta, h⟩ := Outcome.bind_eq_ok.mp h
  obtain ⟨gamma, hgamma, h⟩ := Outcome.bind_eq_ok.mp h
  obtain ⟨dn, hdn, h⟩ := Outcome.bind_eq_ok.mp h
  cases Outcome.ok.inj h
  refine ⟨rfl, fun unit => ?_⟩
  cases unit with
  | sigmaNought => exact ⟨rfl, getMergedVector_spec hsigma⟩
  | betaNought => exact ⟨rfl, getMergedVector_spec hbeta⟩
  | gamma => exact ⟨rfl, getMergedVector_spec hgamma⟩
  | dn => exact ⟨rfl, getMergedVector_spec hdn⟩

/-- The vectors of a polarisation, each merged with the pixels that were merged once. -/
structure MergedWith (src : CalibrationSource T) (pol : List Char) (merged : List MergedPixel)
    (vectors : List (CalibrationVector MergedPixel MergedValue)) : Prop where
  length_eq : vectors.length = src.bandCalibration.length
  pixelsRead : src.PixelsRead pol 0
  pixels : merged = (List.range src.numOfSubSwath).flatMap fun s =>
    (src.effectivePixels pol 0 s).map (src.mergedPixel s)
  vector : ∀ (v : Nat) vector, vectors[v]? = some vector → vector.pixel = ⟨merged.length, merged⟩ ∧
    ∀ unit, (vector.unit unit).count = merged.length ∧
      src.Taken unit pol v (vector.unit unit).values

theorem updatePolarization_spec {missionPrefix : List Char} {element : CalibrationElement}
    (h : src.updatePolarization missionPrefix pol = .ok element) :
    element.polarisation = pol ∧ ∃ merged, src.MergedWith pol merged element.vectors := by
  obtain ⟨merged, hmerged, h⟩ := Outcome.bind_eq_ok.mp h
  obtain ⟨vectors, hvectors, h⟩ := Outcome.bind_eq_ok.mp h
  cases Outcome.ok.inj h
  obtain ⟨hread, hpixels⟩ := getMergedPixels_spec hmerged
  obtain ⟨hlength, hplaces⟩ := map_eq_map_iff_places.mp (Outcome.collect_eq_ok.mp hvectors)
  rw [List.length_range] at hlength
  refine ⟨rfl, merged, hlength.symm, hread, hpixels, fun v vector hv => ?_⟩
  have hlt : v < src.bandCalibration.length :=
    hlength ▸ (List.getElem?_eq_some_iff.mp hv).1
  exact updateVector_spec (hplaces v v vector (List.getElem?_range hlt) hv)

/-! ## Values and their pixels -/

theorem MergedWith.numbered_pixels {merged : List MergedPixel}
    {vectors : List (CalibrationVector MergedPixel MergedValue)}
    (h : src.MergedWith pol merged vectors) :
    merged.map (fun m => (m.subSwath, m.pixel)) =
      numbered src.numOfSubSwath (src.effectivePixels pol 0) := by
  rw [h.pixels, List.map_flatMap]
  refine List.flatMap_congr fun s _ => ?_
  rw [List.map_map]
  rfl

/-- The values stand at the places of their pixels when the effective pixels are those of the
vector at index 0, and not otherwise. -/
theorem Taken.places_iff {merged : List MergedPixel}
    {vectors : List (CalibrationVector MergedPixel MergedValue)} {values : List MergedValue}
    (htaken : src.Taken unit pol v values) (h : src.MergedWith pol merged vectors) :
    (values.length = merged.length ∧ ∀ (i : Nat) e m, values[i]? = some e → merged[i]? = some m →
        src.pixelOf pol v e = (m.subSwath, m.pixel)) ↔
      ∀ s < src.numOfSubSwath, src.effectivePixels pol v s = src.effectivePixels pol 0 s := by
  rw [← map_eq_map_iff_places, htaken.pixels, h.numbered_pixels, numbered_inj]

/-- An entry is the value of a pixel when it was taken at this pixel and its value is read back as
the value of the source. -/
theorem Taken.isValueOf_iff {values : List MergedValue} (htaken : src.Taken unit pol v values)
    {e : MergedValue} (he : e ∈ values) (m : MergedPixel) :
    src.IsValueOf pol v unit e m ↔ src.pixelOf pol v e = (m.subSwath, m.pixel) ∧
      (src.valuesAt pol unit v e.subSwath)[e.index]? = some (Binary32.round e.value) := by
  obtain ⟨hlt, p, value, hp, -, -, -⟩ := htaken.entries e he
  have hpixel : src.pixelOf pol v e = (e.subSwath, p) := by
    rw [pixelOf, List.getD_eq_getElem?_getD, hp]
    rfl
  constructor
  · rintro ⟨hsame, pixelArray, vectorArray, hpixels, hvector, hplace, hvalue⟩
    rw [← hsame, htaken.pixelsRead _ hlt] at hpixels
    rw [← hsame, htaken.valuesRead _ hlt] at hvector
    cases Outcome.ok.inj hpixels
    cases Outcome.ok.inj hvector
    rw [hpixel, ← hsame]
    exact ⟨by rw [Option.some.inj (hp.symm.trans hplace)], hvalue⟩
  · rintro ⟨hplace, hvalue⟩
    rw [hpixel, Prod.mk.injEq] at hplace
    rw [IsValueOf, ← hplace.1, ← hplace.2]
    exact ⟨rfl, _, _, htaken.pixelsRead _ hlt, htaken.valuesRead _ hlt, hp, hvalue⟩

end Loops

/-! ## The order of the merged pixels -/

omit [IsStrictOrderedRing T] in
theorem mem_effectivePixels {s : Nat} {p : Int} :
    p ∈ src.effectivePixels pol v s ↔ p ∈ src.pixelsAt pol v s ∧ src.Effective s p := by
  rw [effectivePixels, List.mem_filter, decide_eq_true_iff]

/-- Where the boundaries are apart, all effective pixels come in the order of the sub-swaths. -/
theorem boundariesApart_iff (hread : src.PixelsRead pol 0) :
    src.BoundariesApart pol ↔ ∀ s s', s < s' → s' < src.numOfSubSwath →
      ∀ p ∈ src.effectivePixels pol 0 s, ∀ q ∈ src.effectivePixels pol 0 s',
        src.targetPixelIdx s p < src.targetPixelIdx s' q := by
  constructor
  · intro hapart s s' hlt hs' p hp q hq
    obtain ⟨hpmem, hpmin, hpmax⟩ := mem_effectivePixels.mp hp
    obtain ⟨hqmem, hqmin, hqmax⟩ := mem_effectivePixels.mp hq
    rcases Classical.em (p = src.xMax s - 1 ∧ q = src.xMin s') with hends | hinner
    -- both at the boundary: the places are in order, and they are not the same
    · obtain ⟨rfl, rfl⟩ := hends
      have hle : src.targetPixelIdx s (src.xMax s - 1) ≤ src.targetPixelIdx s' (src.xMin s') :=
        stdRound_mono (boundary_between hlt hs')
      exact lt_of_le_of_ne hle (hapart s s' hlt hs' _ _ (hread s (hlt.trans hs')) (hread s' hs')
        hpmem hpmin hqmem hqmax)
    · exact effective_lt hlt hs' hpmax hqmin hinner
  · intro horder s s' hlt hs' pixelArray pixelArray' hpixels hpixels' hpmem hpmin hqmem hqmax
    cases Outcome.ok.inj (hpixels.symm.trans (hread s (hlt.trans hs')))
    cases Outcome.ok.inj (hpixels'.symm.trans (hread s' hs'))
    have hp := mem_effectivePixels.mpr ⟨hpmem, hpmin, Int.sub_one_lt_of_le le_rfl⟩
    have hq := mem_effectivePixels.mpr ⟨hqmem, le_refl (src.xMin s'), hqmax⟩
    exact (horder s s' hlt hs' _ hp _ hq).ne

/-- Merged pixels of ascending lists ascend when no two sub-swaths meet at one place, and not
otherwise. -/
theorem ascending_iff (hread : src.PixelsRead pol 0)
    (hsource : ∀ s < src.numOfSubSwath, (src.pixelsAt pol 0 s).Pairwise (· < ·)) :
    (((List.range src.numOfSubSwath).flatMap fun s =>
        (src.effectivePixels pol 0 s).map (src.mergedPixel s)).map
          MergedPixel.targetPixelIdx).Pairwise (· < ·) ↔ src.BoundariesApart pol := by
  rw [boundariesApart_iff hread, List.pairwise_map, List.pairwise_flatMap, pairwise_range_iff]
  constructor
  · rintro ⟨-, hcross⟩ s s' hlt hs' p hp q hq
    exact hcross s s' hlt hs' _ (List.mem_map_of_mem hp) _ (List.mem_map_of_mem hq)
  · intro horder
    refine ⟨fun s hs => ?_, fun s s' hlt hs' x hx y hy => ?_⟩
    · rw [List.pairwise_map]
      refine ((hsource s (List.mem_range.mp hs)).filter _).imp fun hlt => ?_
      exact targetPixelIdx_lt s hlt
    · obtain ⟨p, hp, rfl⟩ := List.mem_map.mp hx
      obtain ⟨q, hq, rfl⟩ := List.mem_map.mp hy
      exact horder s s' hlt hs' p hp q hq

/-- The first effective pixel of a sub-swath lies less than half a column before the boundary, when
it is one of the sub-swath. -/
theorem lt_targetPosition_xMin {s : Nat} (h : 0 ≤ src.xMin (s + 1)) :
    src.boundary s - 1 / 2 < src.targetPosition (s + 1) (src.xMin (s + 1)) := by
  have hposition := src.targetPosition_eq (s + 1) (src.xMin (s + 1)) (t := src.midTime s (s + 1))
  rw [xMin, if_neg (Nat.succ_ne_zero s), Nat.add_sub_cancel] at h hposition ⊢
  generalize (src.midTime s (s + 1) - (src.subSwath (s + 1)).slrTimeToFirstPixel) /
    src.op.targetDeltaSlantRangeTime = q at h hposition ⊢
  have hclose : q - 1 / 2 < stdRound q := by
    rcases le_or_gt 0 q with hq | hq
    · exact sub_half_lt_stdRound hq
    · have hcast : (0 : T) ≤ (stdRound q : T) := Int.cast_nonneg_iff.mpr h
      linarith
  unfold boundary
  linarith

/-- On a grid that the sub-swaths share no two of them meet at one place. -/
theorem boundariesApart_of_grid
    (hgrid : ∀ s < src.numOfSubSwath, ∃ k : Int, (src.subSwath s).slrTimeToFirstPixel =
      src.op.targetSlantRangeTimeToFirstPixel + (k : T) * src.op.targetDeltaSlantRangeTime)
    (hpixels : ∀ s < src.numOfSubSwath, ∀ pixelArray,
      src.getCalibrationPixel s pol 0 = .ok pixelArray → ∀ p ∈ pixelArray, 0 ≤ p) :
    src.BoundariesApart pol := by
  have hplace : ∀ s < src.numOfSubSwath, ∀ p, (src.targetPixelIdx s p : T) =
      src.targetPosition s p := by
    intro s hs p
    obtain ⟨k, hk⟩ := hgrid s hs
    have hdelta := src.delta_pos.ne'
    have hposition : src.targetPosition s p = ((k + p : Int) : T) := by
      rw [targetPosition, hk]
      push_cast
      field_simp
      ring
    rw [targetPixelIdx, hposition, stdRound_intCast]
  intro s s' hlt hs' pixelArray pixelArray' _ hread' _ _ hmem _ heq
  obtain ⟨t, rfl⟩ : ∃ t, s' = t + 1 := ⟨s' - 1, by omega⟩
  have hsame := congrArg (Int.cast : Int → T) heq
  rw [hplace s (hlt.trans hs'), hplace (t + 1) hs'] at hsame
  have hlast := src.targetPosition_last_le (show s ≤ t by omega) hs'
  have hmin := lt_targetPosition_xMin (hpixels (t + 1) hs' pixelArray' hread' _ hmem)
  linarith

/-! ## Well-formed vectors -/

variable {merged : List MergedPixel} {vectors : List (CalibrationVector MergedPixel MergedValue)}

section Vectors

omit [IsStrictOrderedRing T]

theorem MergedWith.exists_vector (h : src.MergedWith pol merged vectors) {v : Nat}
    (hv : v < src.bandCalibration.length) : ∃ vector, vectors[v]? = some vector :=
  ⟨_, List.getElem?_eq_getElem (h.length_eq ▸ hv)⟩

theorem MergedWith.index_lt (h : src.MergedWith pol merged vectors) {v : Nat}
    {vector : CalibrationVector MergedPixel MergedValue} (hv : vectors[v]? = some vector) :
    v < src.bandCalibration.length :=
  h.length_eq ▸ (List.getElem?_eq_some_iff.mp hv).1

/-- In a well-formed vector there are as many values as merged pixels. -/
theorem MergedWith.length_values (h : src.MergedWith pol merged vectors)
    (hwell : src.WellFormed pol vectors) {v : Nat}
    {vector : CalibrationVector MergedPixel MergedValue} (hv : vectors[v]? = some vector)
    (unit : CalibrationUnit) : (vector.unit unit).values.length = merged.length := by
  have hdeclared := hwell.unitCount vector (List.mem_of_getElem? hv) unit
  rw [((h.vector v vector hv).2 unit).1] at hdeclared
  exact_mod_cast hdeclared

theorem MergedWith.samePixels (h : src.MergedWith pol merged vectors)
    (hwell : src.WellFormed pol vectors) : src.SamePixels pol := by
  intro v hv s hs pixelArray pixelArray0 hpixels hpixels0
  obtain ⟨vector, hvector⟩ := h.exists_vector hv
  obtain ⟨hpixel, hunit⟩ := h.vector v vector hvector
  -- any of the lists of values will do
  have htaken := (hunit .sigmaNought).2
  cases Outcome.ok.inj (hpixels.symm.trans (htaken.pixelsRead s hs))
  cases Outcome.ok.inj (hpixels0.symm.trans (h.pixelsRead s hs))
  refine (htaken.places_iff h).mp ⟨h.length_values hwell hvector _, fun i e m he hm => ?_⟩ s hs
  have hvalue := hwell.values v vector hvector .sigmaNought i m e (hpixel ▸ hm) he
  exact ((htaken.isValueOf_iff (List.mem_of_getElem? he) m).mp hvalue).1

theorem MergedWith.sixDigits (h : src.MergedWith pol merged vectors)
    (hwell : src.WellFormed pol vectors) : src.SixDigits pol := by
  intro v hv s hs unit pixelArray vectorArray hpixels hvalues i p value hp heffective hvalue
  obtain ⟨vector, hvector⟩ := h.exists_vector hv
  obtain ⟨hpixel, hunit⟩ := h.vector v vector hvector
  have htaken := (hunit unit).2
  cases Outcome.ok.inj (hpixels.symm.trans (htaken.pixelsRead s hs))
  cases Outcome.ok.inj (hvalues.symm.trans (htaken.valuesRead s hs))
  -- the entry of the value, and the merged pixel at its place
  obtain ⟨e, he, rfl, rfl⟩ := htaken.complete s hs i p hp heffective
  obtain ⟨j, hj, hget⟩ := List.mem_iff_getElem.mp he
  have hj' : j < merged.length := h.length_values hwell hvector unit ▸ hj
  have hplace : vector.pixel.values[j]? = some merged[j] := by
    rw [hpixel]
    exact List.getElem?_eq_getElem hj'
  have hread := hwell.values v vector hvector unit j _ e hplace
    (hget ▸ List.getElem?_eq_getElem hj)
  have hback := ((htaken.isValueOf_iff he _).mp hread).2
  obtain ⟨-, _, value', -, -, hvalue', hwritten⟩ := htaken.entries e he
  rw [hvalue] at hvalue' hback
  cases Option.some.inj hvalue'
  rw [← hwritten]
  exact (Option.some.inj hback).symm

/-- Entries at the places of their pixels hold the values of the source. -/
theorem MergedWith.isValueOf (h : src.MergedWith pol merged vectors) (hsix : src.SixDigits pol)
    {v : Nat} {vector : CalibrationVector MergedPixel MergedValue}
    (hv : vectors[v]? = some vector) {e : MergedValue} {m : MergedPixel}
    (he : e ∈ (vector.unit unit).values)
    (hpixel : src.pixelOf pol v e = (m.subSwath, m.pixel)) : src.IsValueOf pol v unit e m := by
  have htaken := ((h.vector v vector hv).2 unit).2
  obtain ⟨hlt, p, value, hp, heffective, hvalue, hwritten⟩ := htaken.entries e he
  refine (htaken.isValueOf_iff he m).mpr ⟨hpixel, ?_⟩
  rw [hwritten, hsix v (h.index_lt hv) e.subSwath hlt unit _ _ (htaken.pixelsRead _ hlt)
    (htaken.valuesRead _ hlt) e.index p value hp heffective hvalue]
  exact hvalue

omit [FloorRing T] in
/-- The pixels at index 0 ascend where all the pixels of the source do. -/
theorem SourceAscends.first (hsource : src.SourceAscends pol) (hread : src.PixelsRead pol 0)
    (hpos : 0 < src.bandCalibration.length) {s : Nat} (hs : s < src.numOfSubSwath) :
    (src.pixelsAt pol 0 s).Pairwise (· < ·) :=
  hsource s hs 0 hpos _ (hread s hs)

end Vectors

theorem MergedWith.mergeable (h : src.MergedWith pol merged vectors)
    (hwell : src.WellFormed pol vectors) : src.Mergeable pol where
  samePixels := h.samePixels hwell
  sixDigits := h.sixDigits hwell
  boundariesApart hne hsource := by
    have hpos := List.length_pos_of_ne_nil hne
    obtain ⟨vector, hvector⟩ := h.exists_vector hpos
    have hascending := hwell.ascending hsource vector (List.mem_of_getElem? hvector)
    rw [(h.vector 0 vector hvector).1, h.pixels] at hascending
    exact (ascending_iff h.pixelsRead fun s hs => hsource.first h.pixelsRead hpos hs).mp hascending

omit [IsStrictOrderedRing T] in
/-- With the same effective pixels each value stands at the place of its pixel. -/
theorem MergedWith.places (h : src.MergedWith pol merged vectors) (hsame : src.SamePixels pol)
    {v : Nat} {vector : CalibrationVector MergedPixel MergedValue} (hv : vectors[v]? = some vector)
    (unit : CalibrationUnit) : (vector.unit unit).values.length = merged.length ∧
      ∀ (i : Nat) e m, (vector.unit unit).values[i]? = some e → merged[i]? = some m →
        src.pixelOf pol v e = (m.subSwath, m.pixel) := by
  have htaken := ((h.vector v vector hv).2 unit).2
  refine (htaken.places_iff h).mpr fun s hs => ?_
  exact hsame v (h.index_lt hv) s hs _ _ (htaken.pixelsRead s hs) (h.pixelsRead s hs)

theorem MergedWith.wellFormed (h : src.MergedWith pol merged vectors)
    (hmergeable : src.Mergeable pol) : src.WellFormed pol vectors where
  pixelCount vector hmem := by
    obtain ⟨v, hv⟩ := List.mem_iff_getElem?.mp hmem
    rw [(h.vector v vector hv).1]
  unitCount vector hmem unit := by
    obtain ⟨v, hv⟩ := List.mem_iff_getElem?.mp hmem
    rw [((h.vector v vector hv).2 unit).1, (h.places hmergeable.samePixels hv unit).1]
  standsFor vector hmem pixel hpixel := by
    obtain ⟨v, hv⟩ := List.mem_iff_getElem?.mp hmem
    rw [(h.vector v vector hv).1] at hpixel
    simp only [h.pixels] at hpixel
    obtain ⟨s, -, hpixel⟩ := List.mem_flatMap.mp hpixel
    obtain ⟨p, -, rfl⟩ := List.mem_map.mp hpixel
    rfl
  values v vector hv unit i pixel value hpixel hvalue := by
    rw [(h.vector v vector hv).1] at hpixel
    exact h.isValueOf hmergeable.sixDigits hv (List.mem_of_getElem? hvalue)
      ((h.places hmergeable.samePixels hv unit).2 i value pixel hvalue hpixel)
  ascending hsource vector hmem := by
    obtain ⟨v, hv⟩ := List.mem_iff_getElem?.mp hmem
    have hpos := Nat.zero_lt_of_lt (h.index_lt hv)
    have hapart := hmergeable.boundariesApart (List.ne_nil_of_length_pos hpos) hsource
    rw [(h.vector v vector hv).1, h.pixels]
    exact (ascending_iff h.pixelsRead fun s hs => hsource.first h.pixelsRead hpos hs).mpr hapart

theorem MergedWith.wellFormed_iff (h : src.MergedWith pol merged vectors) :
    src.WellFormed pol vectors ↔ src.Mergeable pol :=
  ⟨h.mergeable, h.wellFormed⟩

omit [IsStrictOrderedRing T] in
theorem updateCalibrationVector_spec {elements : List CalibrationElement}
    (h : src.updateCalibrationVector = .ok elements) :
    elements.map CalibrationElement.polarisation = src.polarizations ∧
      ∀ element ∈ elements, ∃ merged,
        src.MergedWith element.polarisation merged element.vectors := by
  obtain ⟨missionPrefix, -, h⟩ := Outcome.bind_eq_ok.mp h
  obtain ⟨hlength, hplaces⟩ := map_eq_map_iff_places.mp (Outcome.collect_eq_ok.mp h)
  constructor
  · rw [← List.map_id src.polarizations]
    refine map_eq_map_iff_places.mpr ⟨hlength.symm, fun i element pol helement hpol => ?_⟩
    exact (updatePolarization_spec (hplaces i pol element hpol helement)).1
  · intro element hmem
    obtain ⟨i, hi⟩ := List.mem_iff_getElem?.mp hmem
    have hi' : i < src.polarizations.length := hlength ▸ (List.getElem?_eq_some_iff.mp hi).1
    obtain ⟨hpol, hmerged⟩ :=
      updatePolarization_spec (hplaces i _ element (List.getElem?_eq_getElem hi') hi)
    rw [hpol]
    exact hmerged

/-- The metadata of the source can be read: the lists are there, hold what they declare, and the
values reach as far as the pixels. -/
structure Readable (src : CalibrationSource T) : Prop where
  mission : src.mission ≠ []
  lists : ∀ pol ∈ src.polarizations, ∀ s < src.numOfSubSwath, ∃ list,
    src.calibrationVectorList s pol = .ok list ∧ list ≠ [] ∧
      src.bandCalibration.length ≤ list.length ∧ ∀ vector ∈ list,
        (vector.pixel.values.length : Int) = vector.pixel.count ∧ ∀ unit,
          ((vector.unit unit).values.length : Int) = (vector.unit unit).count ∧
            vector.pixel.values.length ≤ (vector.unit unit).values.length

section Readable

omit [IsStrictOrderedRing T]

theorem validateMetadataCount_natCast (n : Nat) : validateMetadataCount n n = .ok ⟨⟩ :=
  Outcome.require_of (by simp)

omit [FloorRing T] in
/-- The pixels and the values of a vector of a source that can be read. -/
theorem Readable.exists_vector (h : src.Readable) (hpol : pol ∈ src.polarizations) {s : Nat}
    (hs : s < src.numOfSubSwath) (hv : v < src.bandCalibration.length ∨ v = 0)
    (unit : CalibrationUnit) : ∃ pixelArray vectorArray,
      src.getCalibrationPixel s pol v = .ok pixelArray ∧
      src.getCalibrationVector s pol v unit = .ok vectorArray ∧
      pixelArray.length ≤ vectorArray.length := by
  obtain ⟨list, hlist, hne, hlength, hvectors⟩ := h.lists pol hpol s hs
  have hv' : v < list.length := by
    have hpos := List.length_pos_of_ne_nil hne
    omega
  obtain ⟨hpixels, hunits⟩ := hvectors list[v] (List.getElem_mem hv')
  obtain ⟨hunit, hreach⟩ := hunits unit
  refine ⟨list[v].pixel.values, (list[v].unit unit).values.map Binary32.round, ?_, ?_, ?_⟩
  · rw [getCalibrationPixel, hlist, Outcome.ok_bind, vectorAt_natCast hv', Outcome.ok_bind,
      ← hpixels, validateMetadataCount_natCast]
    rfl
  · rw [getCalibrationVector, hlist, Outcome.ok_bind, vectorAt_natCast hv', Outcome.ok_bind,
      ← hunit, validateMetadataCount_natCast]
    rfl
  · rw [List.length_map]
    exact hreach

theorem Readable.exists_getMergedPixels (h : src.Readable) (hpol : pol ∈ src.polarizations) :
    ∃ merged, src.getMergedPixels pol = .ok merged := by
  have hround : ∀ s ∈ List.range src.numOfSubSwath, ∃ list, src.swathPixels pol s = .ok list := by
    intro s hs
    obtain ⟨pixelArray, -, hpixels, -⟩ :=
      h.exists_vector hpol (List.mem_range.mp hs) (.inr rfl) .sigmaNought
    rw [swathPixels, hpixels]
    exact ⟨_, rfl⟩
  obtain ⟨lists, hlists, -⟩ := Outcome.exists_collect_map hround
  rw [getMergedPixels, hlists]
  exact ⟨_, rfl⟩

/-- Each effective pixel has a value, so the inner loop does not throw. -/
theorem exists_effectiveValues (s : Nat) {pixelArray : List Int} {vectorArray : List ℚ}
    (hreach : pixelArray.length ≤ vectorArray.length) :
    ∃ values, src.effectiveValues s pixelArray vectorArray = .ok values := by
  have hround : ∀ entry ∈ pixelArray.zipIdx.filter fun entry => src.Effective s entry.1,
      ∃ e, (vectorAt vectorArray entry.2 >>= fun value =>
        .ok ⟨s, entry.2, Binary32.streamed value⟩) = Outcome.ok (e : MergedValue) := by
    intro entry hentry
    have hplace := List.mem_zipIdx_iff_getElem?.mp (List.mem_filter.mp hentry).1
    have hlt := (List.getElem?_eq_some_iff.mp hplace).1.trans_le hreach
    exact ⟨_, by rw [vectorAt_natCast hlt, Outcome.ok_bind]⟩
  obtain ⟨values, hvalues, -⟩ := Outcome.exists_collect_map hround
  exact ⟨values, hvalues⟩

theorem Readable.exists_getMergedVector (h : src.Readable) (hpol : pol ∈ src.polarizations)
    (hv : v < src.bandCalibration.length) (unit : CalibrationUnit) :
    ∃ values, src.getMergedVector unit pol v = .ok values := by
  have hround : ∀ s ∈ List.range src.numOfSubSwath,
      ∃ list, src.swathValues unit pol v s = .ok list := by
    intro s hs
    obtain ⟨pixelArray, vectorArray, hpixels, hvector, hreach⟩ :=
      h.exists_vector hpol (List.mem_range.mp hs) (.inl hv) unit
    rw [swathValues, hpixels, Outcome.ok_bind, hvector, Outcome.ok_bind]
    exact exists_effectiveValues s hreach
  obtain ⟨lists, hlists, -⟩ := Outcome.exists_collect_map hround
  rw [getMergedVector, hlists]
  exact ⟨_, rfl⟩

theorem Readable.exists_updatePolarization (h : src.Readable) (hpol : pol ∈ src.polarizations)
    (missionPrefix : List Char) :
    ∃ element, src.updatePolarization missionPrefix pol = .ok element := by
  obtain ⟨merged, hmerged⟩ := h.exists_getMergedPixels hpol
  have hround : ∀ v ∈ List.range src.bandCalibration.length,
      ∃ vector, src.updateVector pol merged v = .ok vector := by
    intro v hv
    have hlt := List.mem_range.mp hv
    obtain ⟨sigmaNought, hsigma⟩ := h.exists_getMergedVector hpol hlt .sigmaNought
    obtain ⟨betaNought, hbeta⟩ := h.exists_getMergedVector hpol hlt .betaNought
    obtain ⟨gamma, hgamma⟩ := h.exists_getMergedVector hpol hlt .gamma
    obtain ⟨dn, hdn⟩ := h.exists_getMergedVector hpol hlt .dn
    rw [updateVector, hsigma, Outcome.ok_bind, hbeta, Outcome.ok_bind, hgamma, Outcome.ok_bind,
      hdn]
    exact ⟨_, rfl⟩
  obtain ⟨vectors, hvectors, -⟩ := Outcome.exists_collect_map hround
  rw [updatePolarization, hmerged, Outcome.ok_bind, hvectors]
  exact ⟨_, rfl⟩

/-- The calibration metadata of a source that can be read is updated. -/
theorem Readable.exists_updateCalibrationVector (h : src.Readable) :
    ∃ elements, src.updateCalibrationVector = .ok elements := by
  have hlast : src.mission.length - 1 < src.mission.length :=
    Nat.sub_lt (List.length_pos_of_ne_nil h.mission) Nat.one_pos
  have hprefix : ∃ missionPrefix, src.getMissionPrefix = .ok missionPrefix := by
    have hindex : (src.mission.length : Int) - 1 = ((src.mission.length - 1 : Nat) : Int) := by
      omega
    rw [getMissionPrefix, hindex, vectorAt_natCast hlast]
    exact ⟨_, rfl⟩
  obtain ⟨missionPrefix, hprefix⟩ := hprefix
  obtain ⟨elements, helements, -⟩ := Outcome.exists_collect_map fun pol hpol =>
    h.exists_updatePolarization hpol missionPrefix
  rw [updateCalibrationVector, hprefix, Outcome.ok_bind]
  exact ⟨elements, helements⟩

end Readable

/-- **The merge.** The vectors of the target are well-formed for the sources of which each
polarisation has the same effective pixels in all vectors, values of six digits, and no two
sub-swaths that meet at one place, and for no other ones. -/
theorem updatesWellFormed_iff {elements : List CalibrationElement}
    (h : src.updateCalibrationVector = .ok elements) :
    (∀ element ∈ elements, src.WellFormed element.polarisation element.vectors) ↔
      ∀ pol ∈ src.polarizations, src.Mergeable pol := by
  obtain ⟨hpols, hmerged⟩ := updateCalibrationVector_spec h
  rw [← hpols, List.forall_mem_map]
  exact forall₂_congr fun element hmem => (hmerged element hmem).elim fun _ h => h.wellFormed_iff

end CalibrationSource

/-! ## Two sub-swaths with two vectors -/

/-- A vector with the values 1, 2, … in all its lists. -/
def countingVector (pixels : List Int) : CalibrationVector Int ℚ where
  pixel := ⟨pixels.length, pixels⟩
  unit _ := ⟨pixels.length, (List.range pixels.length).map fun i => ((i + 1 : Nat) : ℚ)⟩

/-- Two sub-swaths that overlap in one column. The vectors at index 0 have two pixels, the later
vector of the first sub-swath has the given ones. -/
def twoVectors (later : List Int) : CalibrationSource ℚ where
  op := swathsAt 2
  mission := "SENTINEL-1A".toList
  acquisitionMode := "IW".toList
  productType := "SLC".toList
  polarizations := ["VV".toList]
  bandCalibration := [countingVector [0, 1], countingVector later]
  calibrationVectorList s _ :=
    .ok [countingVector [0, 1], countingVector (if s = 0 then later else [0, 1])]
  ordered := by norm_num [swathsAt, swathFrom, overlapSwath]

theorem countingVector_counts (pixels : List Int) (unit : CalibrationUnit) :
    ((countingVector pixels).pixel.values.length : Int) = (countingVector pixels).pixel.count ∧
      (((countingVector pixels).unit unit).values.length : Int) =
          ((countingVector pixels).unit unit).count ∧
        (countingVector pixels).pixel.values.length ≤
          ((countingVector pixels).unit unit).values.length := by
  simp [countingVector]

theorem readable_twoVectors (later : List Int) : (twoVectors later).Readable where
  mission := by
    show "SENTINEL-1A".toList ≠ []
    decide
  lists pol _ s _ := by
    refine ⟨_, rfl, List.cons_ne_nil _ _, le_refl 2, fun vector hvector => ?_⟩
    obtain ⟨pixels, rfl⟩ : ∃ pixels, vector = countingVector pixels := by
      cases hvector with
      | head => exact ⟨_, rfl⟩
      | tail _ hvector => exact ⟨_, List.mem_singleton.mp hvector⟩
    exact ⟨(countingVector_counts pixels .dn).1, fun unit => (countingVector_counts pixels unit).2⟩

/-- What is read of a vector is what it was made of. -/
theorem getCalibrationPixel_twoVectors {later : List Int} {s v : Nat} {pol : List Char}
    {pixelArray : List Int}
    (h : (twoVectors later).getCalibrationPixel s pol v = .ok pixelArray) :
    [[0, 1], if s = 0 then later else [0, 1]][v]? = some pixelArray := by
  obtain ⟨list, hlist, hrest⟩ := Outcome.bind_eq_ok.mp h
  cases Outcome.ok.inj hlist
  obtain ⟨vector, hvector, hchecked⟩ := Outcome.bind_eq_ok.mp hrest
  obtain ⟨-, -, hvalues⟩ := Outcome.bind_eq_ok.mp hchecked
  have hplace := (vectorAt_eq_ok.mp hvector).2
  have hpixels := congrArg (Option.map fun vector : CalibrationVector Int ℚ => vector.pixel.values)
    hplace
  rw [← List.getElem?_map] at hpixels
  exact hpixels.trans (congrArg some (Outcome.ok.inj hvalues))

theorem getCalibrationVector_twoVectors {later : List Int} {s v : Nat} {pol : List Char}
    {unit : CalibrationUnit} {vectorArray : List ℚ}
    (h : (twoVectors later).getCalibrationVector s pol v unit = .ok vectorArray) :
    ∀ value ∈ vectorArray, ∃ n : Nat, n ≤ later.length + 2 ∧ value = Binary32.round (n : ℚ) := by
  obtain ⟨list, hlist, hrest⟩ := Outcome.bind_eq_ok.mp h
  cases Outcome.ok.inj hlist
  obtain ⟨vector, hvector, hchecked⟩ := Outcome.bind_eq_ok.mp hrest
  obtain ⟨-, -, hvalues⟩ := Outcome.bind_eq_ok.mp hchecked
  cases Outcome.ok.inj hvalues
  have hmem := List.mem_of_getElem? (vectorAt_eq_ok.mp hvector).2
  obtain ⟨pixels, hpixels, rfl⟩ : ∃ pixels : List Int, pixels.length ≤ later.length + 2 ∧
      vector = countingVector pixels := by
    cases hmem with
    | head => exact ⟨[0, 1], by simp, rfl⟩
    | tail _ hmem =>
      refine ⟨_, ?_, List.mem_singleton.mp hmem⟩
      split <;> simp
  intro value hvalue
  obtain ⟨q, hq, rfl⟩ := List.mem_map.mp hvalue
  obtain ⟨i, hi, rfl⟩ := List.mem_map.mp hq
  exact ⟨i + 1, (List.mem_range.mp hi).trans_le hpixels, rfl⟩

/-- With the same pixels in all vectors nothing is wrong. -/
theorem mergeable_twoVectors (pol : List Char) : (twoVectors [0, 1]).Mergeable pol where
  samePixels v hv s _ pixelArray pixelArray0 hpixels hpixels0 := by
    have hsame : ∀ v pixelArray, (twoVectors [0, 1]).getCalibrationPixel s pol v = .ok pixelArray →
        pixelArray = [0, 1] := by
      intro v pixelArray h
      have hmem := List.mem_of_getElem? (getCalibrationPixel_twoVectors h)
      rw [ite_self, List.mem_cons, List.mem_singleton, or_self] at hmem
      exact hmem
    rw [hsame v _ hpixels, hsame 0 _ hpixels0]
  sixDigits v _ s _ unit pixelArray vectorArray _ hvalues i p value _ _ hvalue := by
    obtain ⟨n, hn, rfl⟩ :=
      getCalibrationVector_twoVectors hvalues value (List.mem_of_getElem? hvalue)
    have hn' : n ≤ 4 := hn
    have hround : Binary32.round (n : ℚ) = n := by
      exact_mod_cast Binary32.round_intCast (n := n) (by omega) (by omega)
    rw [hround, Binary32.streamed_natCast (by omega), hround]
  boundariesApart _ _ := by
    refine CalibrationSource.boundariesApart_of_grid (fun s hs => ?_)
      fun s _ pixelArray h p hp => ?_
    · have hs' : s < 2 := hs
      obtain rfl | rfl : s = 0 ∨ s = 1 := by omega
      · exact ⟨0, by decide +kernel⟩
      · exact ⟨2, by decide +kernel⟩
    · have hpixels := Option.some.inj (getCalibrationPixel_twoVectors h)
      rw [← hpixels] at hp
      simp only [List.mem_cons, List.not_mem_nil, or_false] at hp
      omega

/-- The vectors of two sub-swaths are merged well when they share their pixels. -/
theorem wellFormed_twoVectors : ∃ elements,
    (twoVectors [0, 1]).updateCalibrationVector = .ok elements ∧
      ∀ element ∈ elements,
        (twoVectors [0, 1]).WellFormed element.polarisation element.vectors := by
  obtain ⟨elements, helements⟩ := (readable_twoVectors [0, 1]).exists_updateCalibrationVector
  exact ⟨elements, helements, (CalibrationSource.updatesWellFormed_iff helements).mpr
    fun pol _ => mergeable_twoVectors pol⟩

/-- A vector of the first sub-swath has one pixel less, and the values of the merged vector are one
less than it declares. -/
theorem not_wellFormed_twoVectors : ∃ elements,
    (twoVectors [0]).updateCalibrationVector = .ok elements ∧
      ¬ ∀ element ∈ elements, (twoVectors [0]).WellFormed element.polarisation element.vectors := by
  obtain ⟨elements, helements⟩ := (readable_twoVectors [0]).exists_updateCalibrationVector
  refine ⟨elements, helements, fun hwell => ?_⟩
  obtain ⟨hpols, hmerged⟩ := CalibrationSource.updateCalibrationVector_spec helements
  obtain ⟨element, rfl, hpol⟩ := List.map_eq_singleton_iff.mp hpols
  obtain ⟨merged, hmerged⟩ := hmerged element List.mem_cons_self
  have hsame := hmerged.samePixels (hwell element List.mem_cons_self) 1 (by decide) 0 (by decide)
    [0] [0, 1] rfl rfl
  revert hsame
  decide +kernel

end Alus.TopsarDeburst
