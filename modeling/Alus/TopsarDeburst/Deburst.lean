import Mathlib.Data.List.Range
import Mathlib.Tactic.Ring
import Alus.Lib.Rounding
import Alus.Lib.Tiling

/-!
# TOPSAR deburst

`TOPSARDeburstOp::ComputeTileStack` (`topsar-deburst-op/src/topsar_deburst_op.cc`), on a product
of one sub-swath. The bursts overlap in time; each line of the target raster is copied from one
line of the source, chosen by time among the bursts that hold it. Whether a tile is processed at
all is decided by its first and last column and its first and last line.

Times are exact numbers. A pixel of the target is described by the source pixel that was copied
to it.
-/

namespace Alus.TopsarDeburst

open Alus.Lib

variable {T : Type} [Field T] [LinearOrder T] [IsStrictOrderedRing T] [FloorRing T]

/-- `LIGHT_SPEED`. -/
def lightSpeed : Nat := 299792458

/-- `SubSwathInfo`, with the bursts in the order of their times. The vectors are read at indices
below `numOfBursts`. -/
structure SubSwathInfo (T : Type) [Field T] [LinearOrder T] where
  numOfBursts : Nat
  linesPerBurst : Int
  numOfSamples : Int
  numOfLines : Int
  azimuthTimeInterval : T
  rangePixelSpacing : T
  firstLineTime : T
  lastLineTime : T
  firstValidLineTime : T
  lastValidLineTime : T
  burstFirstLineTime : Nat → T
  burstLastLineTime : Nat → T
  burstFirstValidLineTime : Nat → T
  burstLastValidLineTime : Nat → T
  slrTimeToFirstPixel : T
  slrTimeToLastPixel : T
  slrTimeToFirstValidPixel : T
  slrTimeToLastValidPixel : T
  bursts_pos : 0 < numOfBursts
  lines_pos : 0 < linesPerBurst
  interval_pos : 0 < azimuthTimeInterval
  spacing_pos : 0 < rangePixelSpacing
  numOfLines_eq : numOfLines = numOfBursts * linesPerBurst
  burstLastLineTime_eq : ∀ i < numOfBursts,
    burstLastLineTime i =
      burstFirstLineTime i + ((linesPerBurst - 1 : Int) : T) * azimuthTimeInterval
  ordered : ∀ i j, i < j → j < numOfBursts → burstFirstLineTime i < burstFirstLineTime j
  firstValidLineTime_eq : firstValidLineTime = burstFirstValidLineTime 0
  lastValidLineTime_eq : lastValidLineTime = burstLastValidLineTime (numOfBursts - 1)
  slrTimeToLastPixel_eq : slrTimeToLastPixel = slrTimeToFirstPixel +
    ((numOfSamples - 1 : Int) : T) * rangePixelSpacing / (lightSpeed : T)

/-- `BurstInfo`. -/
structure BurstInfo (T : Type) where
  sy0 : Int
  sy1 : Int
  burstNum0 : Nat
  burstNum1 : Nat
  targetTime : T
  midTime : T

/-- What a pixel of the target holds: nothing, a pixel of the source, or memory outside the
source tile. -/
inductive Sample where
  | unwritten
  | source (x y : Int)
  | outside
  deriving DecidableEq, Repr

namespace SubSwathInfo

variable (s : SubSwathInfo T)

/-! ## The target raster -/

/-- `target_delta_slant_range_time_`. -/
def deltaSlantRangeTime : T := s.rangePixelSpacing / (lightSpeed : T)

/-- The time of a line: `target_first_line_time_ + y * target_line_time_interval_`. -/
def lineTime (y : Int) : T := s.firstLineTime + (y : T) * s.azimuthTimeInterval

/-- The slant range time of a column. -/
def slrTime (x : Int) : T := s.slrTimeToFirstPixel + (x : T) * s.deltaSlantRangeTime

def targetHeight : Int :=
  stdRound ((s.lastLineTime - s.firstLineTime) / s.azimuthTimeInterval + 1)

def targetWidth : Int :=
  stdRound ((s.slrTimeToLastPixel - s.slrTimeToFirstPixel) / s.deltaSlantRangeTime + 1)

def computeYMin : Int := toInt ((s.firstValidLineTime - s.firstLineTime) / s.azimuthTimeInterval)

def computeYMax : Int := toInt ((s.lastValidLineTime - s.firstLineTime) / s.azimuthTimeInterval)

def computeXMin : Int :=
  toInt ((s.slrTimeToFirstValidPixel - s.slrTimeToFirstPixel) / s.deltaSlantRangeTime)

def computeXMax : Int :=
  toInt ((s.slrTimeToLastValidPixel - s.slrTimeToFirstPixel) / s.deltaSlantRangeTime)

/-! ## The source line of a target line -/

/-- The time lies in the burst, its last line excluded. -/
def BurstHolds (i : Nat) (targetLineTime : T) : Prop :=
  s.burstFirstLineTime i ≤ targetLineTime ∧ targetLineTime < s.burstLastLineTime i

instance (i : Nat) (t : T) : Decidable (s.BurstHolds i t) := inferInstanceAs (Decidable (_ ∧ _))

/-- The line of the source raster that holds the time in the burst. -/
def burstLine (i : Nat) (targetLineTime : T) : Int :=
  i * s.linesPerBurst +
    toInt ((targetLineTime - s.burstFirstLineTime i) / s.azimuthTimeInterval + 1 / 2)

/-- The loop of `GetLineIndicesInSourceProduct`; `k` counts the bursts found so far. -/
def lineIndicesLoop (targetLineTime : T) : List Nat → Nat → BurstInfo T → BurstInfo T
  | [], _, burstTimes => burstTimes
  | i :: is, k, burstTimes =>
    if s.BurstHolds i targetLineTime then
      if k = 0 then
        lineIndicesLoop targetLineTime is (k + 1)
          { burstTimes with sy0 := s.burstLine i targetLineTime, burstNum0 := i }
      else
        -- the second burst ends the loop
        { burstTimes with sy1 := s.burstLine i targetLineTime, burstNum1 := i }
    else
      lineIndicesLoop targetLineTime is k burstTimes

/-- `GetLineIndicesInSourceProduct`: whether the line is found, and the record it updates. -/
def getLineIndicesInSourceProduct (ty : Int) (burstTimes : BurstInfo T) : Bool × BurstInfo T :=
  let targetLineTime := s.lineTime ty
  let found := s.lineIndicesLoop targetLineTime (List.range s.numOfBursts) 0
    { burstTimes with targetTime := targetLineTime, sy0 := -1, sy1 := -1 }
  let result :=
    if found.sy0 ≠ -1 ∧ found.sy1 ≠ -1 then
      { found with midTime :=
          (s.burstLastLineTime found.burstNum0 + s.burstFirstLineTime found.burstNum1) / 2 }
    else found
  (result.sy0 ≠ -1 ∨ result.sy1 ≠ -1, result)

/-- `GetLineIndicesInSourceProduct` for a line of any raster, by its time. -/
def lineIndicesAt (targetLineTime : T) (burstTimes : BurstInfo T) : Bool × BurstInfo T :=
  let found := s.lineIndicesLoop targetLineTime (List.range s.numOfBursts) 0
    { burstTimes with targetTime := targetLineTime, sy0 := -1, sy1 := -1 }
  let result :=
    if found.sy0 ≠ -1 ∧ found.sy1 ≠ -1 then
      { found with midTime :=
          (s.burstLastLineTime found.burstNum0 + s.burstFirstLineTime found.burstNum1) / 2 }
    else found
  (result.sy0 ≠ -1 ∨ result.sy1 ≠ -1, result)

/-- The source line: the second burst's once the middle of the overlap is past. -/
def chosenLine (burstInfo : BurstInfo T) : Int :=
  if burstInfo.sy1 ≠ -1 ∧ burstInfo.targetTime > burstInfo.midTime then burstInfo.sy1
  else burstInfo.sy0

/-- The record that `ComputeTileStack` starts with. -/
def initialBurstInfo : BurstInfo T := ⟨0, 0, 0, 0, 0, 0⟩

/-- The source line that is chosen for the time of a target line, if there is one. -/
def sourceLine (y : Int) : Option Int :=
  let result := s.getLineIndicesInSourceProduct y initialBurstInfo
  if result.1 then some (chosenLine result.2) else none

/-! ## One tile -/

/-- `GetSampleIndexInSourceProduct`. -/
def getSampleIndexInSourceProduct (tx : Int) : Int :=
  let sx := toInt ((s.slrTime tx - s.slrTimeToFirstPixel) / s.deltaSlantRangeTime + 1 / 2)
  if sx < 0 then 0 else if sx > s.numOfSamples - 1 then s.numOfSamples - 1 else sx

/-- `GetSourceRectangle`. -/
def getSourceRectangle (tile : Rectangle) : Rectangle :=
  let x0 := s.getSampleIndexInSourceProduct tile.x
  let xMax := s.getSampleIndexInSourceProduct (tile.x + tile.width - 1)
  let first := s.getLineIndicesInSourceProduct tile.y initialBurstInfo
  let y0 := if first.2.sy0 = -1 ∧ first.2.sy1 = -1 then 0 else first.2.sy0
  -- the record of the first line is passed on
  let last := s.getLineIndicesInSourceProduct (tile.y + tile.height - 1) first.2
  let yMax :=
    if last.2.sy0 = -1 ∧ last.2.sy1 = -1 then s.numOfLines - 1 else max last.2.sy0 last.2.sy1
  ⟨x0, y0, xMax - x0 + 1, yMax - y0 + 1⟩

/-- The element `sx - CalculateStride(sy)` of the source tile, which holds the rows of the source
rectangle one after the other. -/
def readSource (rect : Rectangle) (sx sy : Int) : Sample :=
  let idx := sx - rect.x + (sy - rect.y) * rect.width
  if 0 ≤ idx ∧ idx < rect.width * rect.height then
    .source (rect.x + idx % rect.width) (rect.y + idx / rect.width)
  else .outside

/-- One round of the loop of `ComputeTileInOneSwathFloat`: it copies a part of a row. -/
def copyLine (rect : Rectangle) (firstX lastX : Int)
    (state : BurstInfo T × (Int → Int → Sample)) (y : Int) :
    BurstInfo T × (Int → Int → Sample) :=
  let result := s.getLineIndicesInSourceProduct y state.1
  if result.1 then
    let sy := chosenLine result.2
    -- only the first column is looked up; the rest of the row is copied after it
    let sx := stdRound ((s.slrTime firstX - s.slrTimeToFirstPixel) / s.deltaSlantRangeTime)
    (result.2, fun x' y' =>
      if y' = y ∧ firstX ≤ x' ∧ x' < lastX then readSource rect (sx + (x' - firstX)) sy
      else state.2 x' y')
  else (result.2, state.2)

/-- `ComputeTileInOneSwathFloat`. -/
def computeTileInOneSwathFloat (tile rect : Rectangle) : Int → Int → Sample :=
  let firstY := max tile.y s.computeYMin
  let lastY := min (tile.y + tile.height) (s.computeYMax + 1)
  let firstX := max tile.x s.computeXMin
  let lastX := min (tile.x + tile.width) (s.computeXMax + 1)
  if firstY ≥ lastY ∨ firstX ≥ lastX then fun _ _ => .unwritten
  else
    ((intRange firstY lastY).foldl (s.copyLine rect firstX lastX)
      (initialBurstInfo, fun _ _ => .unwritten)).2

/-- The column passes the range test of `ComputeTileStack`. -/
def ValidColumn (x : Int) : Prop :=
  s.slrTimeToFirstValidPixel ≤ s.slrTime x ∧ s.slrTime x ≤ s.slrTimeToLastValidPixel

/-- The line passes its time test. -/
def TestedLine (y : Int) : Prop :=
  s.burstFirstValidLineTime 0 ≤ s.lineTime y ∧
    s.lineTime y < s.burstLastLineTime (s.numOfBursts - 1)

instance (x : Int) : Decidable (s.ValidColumn x) := inferInstanceAs (Decidable (_ ∧ _))

instance (y : Int) : Decidable (s.TestedLine y) := inferInstanceAs (Decidable (_ ∧ _))

/-- The search for the first sub-swath of the tile. -/
def firstSubSwathIndex (tile : Rectangle) : Int :=
  if s.ValidColumn tile.x ∧ (s.TestedLine tile.y ∨ s.TestedLine (tile.y + tile.height - 1)) then 1
  else -1

/-- The search for the last one, which is skipped when the first one found is the last. -/
def lastSubSwathIndex (tile : Rectangle) : Int :=
  if s.firstSubSwathIndex tile = 1 then 1
  else if s.ValidColumn (tile.x + tile.width - 1) ∧
      (s.TestedLine tile.y ∨ s.TestedLine (tile.y + tile.height - 1)) then 1
  else -1

/-- `ComputeTileStack`, as a function of the pixel. -/
def computeTileStack (tile : Rectangle) : Int → Int → Sample :=
  if s.firstSubSwathIndex tile = -1 ∧ s.lastSubSwathIndex tile = -1 then fun _ _ => .unwritten
  else s.computeTileInOneSwathFloat tile (s.getSourceRectangle tile)

/-- `Compute`: the target after all the tiles. -/
def compute (tiles : List Rectangle) : Int → Int → Sample :=
  image s.computeTileStack (fun _ _ => .unwritten) tiles

/-! ## What the operator is for -/

/-- The line lies between the first and the last valid line, both included. -/
def ValidLine (y : Int) : Prop :=
  s.firstValidLineTime ≤ s.lineTime y ∧ s.lineTime y ≤ s.lastValidLineTime

/-- No line is lost and the tiles do not matter: every valid line is copied, at its valid columns,
from the source line chosen for its time, and the result is the same for every partition. -/
def DeburstCorrect : Prop :=
  (∀ tiles, IsPartition s.targetWidth s.targetHeight tiles →
    ∀ y, 0 ≤ y → y < s.targetHeight → s.ValidLine y →
    ∀ x, 0 ≤ x → x < s.targetWidth → s.ValidColumn x →
      ∃ sy, s.sourceLine y = some sy ∧ s.compute tiles x y = .source x sy) ∧
  TileIndependent s.computeTileStack (fun _ _ => .unwritten) s.targetWidth s.targetHeight

end SubSwathInfo

end Alus.TopsarDeburst
