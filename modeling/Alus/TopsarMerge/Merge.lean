import Mathlib.Data.List.Range
import Mathlib.Tactic.Ring
import Alus.Lib.Rounding
import Alus.Lib.Tiling

/-!
# TOPSAR merge

`TopsarMergeOperator::ComputeTileStack` (`topsar-merge/src/topsar_merge.cc`) puts the debursted
sub-swaths of a product into one raster. For each tile it looks for the first and the last
sub-swath that its corners lie in (`topsar_merge_utils.cc`). If these are one, a part of that
sub-swath is copied by rows; if not, each pixel is taken from one of the sub-swaths between them
that have it in their valid times.

Times are exact numbers. A pixel of the target is described by the sub-swath and the source pixel
that it is taken from. An index of `-1` is `none`.
-/

namespace Alus.TopsarMerge

open Alus.Lib

variable {T : Type} [Field T] [LinearOrder T] [IsStrictOrderedRing T] [FloorRing T]

/-- `LIGHT_SPEED`. -/
def lightSpeed : Nat := 299792458

/-- `SubSwathMergeInfo`. The valid lines and samples are among the lines and samples of the
sub-swath. -/
structure SubSwathMergeInfo (T : Type) [Field T] [LinearOrder T] where
  slrTimeToFirstValidPixel : T
  slrTimeToLastValidPixel : T
  firstValidLineTime : T
  lastValidLineTime : T
  firstLineTime : T
  lastLineTime : T
  azimuthTimeInterval : T
  slrTimeToFirstPixel : T
  slrTimeToLastPixel : T
  numberOfSamples : Int
  numberOfLines : Int
  rangePixelSpacing : T
  interval_pos : 0 < azimuthTimeInterval
  spacing_pos : 0 < rangePixelSpacing
  samples_pos : 0 < numberOfSamples
  lines_pos : 0 < numberOfLines
  firstLineTime_le : firstLineTime ≤ firstValidLineTime
  lastValidLineTime_le : lastValidLineTime ≤ lastLineTime
  firstPixel_le : slrTimeToFirstPixel ≤ slrTimeToFirstValidPixel
  lastValidPixel_le : slrTimeToLastValidPixel ≤ slrTimeToLastPixel
  slrTimeToLastPixel_eq : slrTimeToLastPixel = slrTimeToFirstPixel +
    ((numberOfSamples - 1 : Int) : T) * rangePixelSpacing / (lightSpeed : T)

/-- What a pixel of the target holds: nothing, a pixel of a sub-swath, or what lies outside of the
source tile. -/
inductive Sample where
  | unwritten
  | source (subSwath : Nat) (x y : Int)
  | outside
  deriving DecidableEq, Repr

/-- `TopsarMergeOperator`, with the sub-swaths of one product in the order of their numbers, which
is that of their ranges. The infos are read at indices below `numberOfSubswaths`. -/
structure TopsarMergeOperator (T : Type) [Field T] [LinearOrder T] where
  numberOfSubswaths : Nat
  info : Nat → SubSwathMergeInfo T
  subswaths_pos : 0 < numberOfSubswaths
  ordered : ∀ i j, i < j → j < numberOfSubswaths →
    (info i).slrTimeToFirstValidPixel ≤ (info j).slrTimeToFirstValidPixel ∧
      (info i).slrTimeToLastValidPixel ≤ (info j).slrTimeToLastValidPixel
  sameSpacing : ∀ i < numberOfSubswaths,
    (info i).rangePixelSpacing = (info 0).rangePixelSpacing

namespace TopsarMergeOperator

variable (m : TopsarMergeOperator T)

/-! ## The target raster -/

/-- `target_first_line_time`, by the loop of `ComputeTargetStartEndTime`. -/
def targetFirstLineTime : T :=
  (List.range m.numberOfSubswaths).foldl (fun time i =>
    if time > (m.info i).firstLineTime then (m.info i).firstLineTime else time)
    (m.info 0).firstLineTime

def targetLastLineTime : T :=
  (List.range m.numberOfSubswaths).foldl (fun time i =>
    if time < (m.info i).lastLineTime then (m.info i).lastLineTime else time)
    (m.info 0).lastLineTime

def targetLineTimeInterval : T := (m.info 0).azimuthTimeInterval

/-- `target_slant_range_time_to_first_pixel`. -/
def targetSlrTimeToFirstPixel : T := (m.info 0).slrTimeToFirstValidPixel

def targetSlrTimeToLastPixel : T :=
  (m.info (m.numberOfSubswaths - 1)).slrTimeToLastValidPixel

/-- `target_delta_slant_range_time`. -/
def targetDeltaSlrTime : T := (m.info 0).rangePixelSpacing / (lightSpeed : T)

def targetHeight : Int :=
  toInt ((m.targetLastLineTime - m.targetFirstLineTime) / m.targetLineTimeInterval)

def targetWidth : Int :=
  toInt ((m.targetSlrTimeToLastPixel - m.targetSlrTimeToFirstPixel) / m.targetDeltaSlrTime)

/-- The time of a line of the target. -/
def lineTime (y : Int) : T := m.targetFirstLineTime + (y : T) * m.targetLineTimeInterval

/-- The slant range time of a column of the target. -/
def slrTime (x : Int) : T := m.targetSlrTimeToFirstPixel + (x : T) * m.targetDeltaSlrTime

/-! ## The sub-swaths of a tile -/

/-- The column lies in the valid range times of the sub-swath. -/
def ValidColumn (i : Nat) (x : Int) : Prop :=
  (m.info i).slrTimeToFirstValidPixel ≤ m.slrTime x ∧
    m.slrTime x ≤ (m.info i).slrTimeToLastValidPixel

/-- The line passes the test that is made at the corners of a tile. -/
def TestedLine (i : Nat) (y : Int) : Prop :=
  (m.info i).firstValidLineTime ≤ m.lineTime y ∧ m.lineTime y < (m.info i).lastValidLineTime

/-- The line lies in the valid times of the sub-swath, both ends included. -/
def ValidLine (i : Nat) (y : Int) : Prop :=
  (m.info i).firstValidLineTime ≤ m.lineTime y ∧ m.lineTime y ≤ (m.info i).lastValidLineTime

instance (i : Nat) (x : Int) : Decidable (m.ValidColumn i x) :=
  inferInstanceAs (Decidable (_ ∧ _))

instance (i : Nat) (y : Int) : Decidable (m.TestedLine i y) :=
  inferInstanceAs (Decidable (_ ∧ _))

instance (i : Nat) (y : Int) : Decidable (m.ValidLine i y) := inferInstanceAs (Decidable (_ ∧ _))

/-- One of the two lines passes the test. -/
def Tested (i : Nat) (y y' : Int) : Prop := m.TestedLine i y ∨ m.TestedLine i y'

instance (i : Nat) (y y' : Int) : Decidable (m.Tested i y y') :=
  inferInstanceAs (Decidable (_ ∨ _))

/-- The first sub-swath valid at the column, of those tested at the first or the last line. -/
def firstValid (x y y' : Int) : Option Nat :=
  (List.range m.numberOfSubswaths).find? fun i => m.ValidColumn i x ∧ m.Tested i y y'

/-- The last one: the loop does not stop at a sub-swath it finds. -/
def lastValid (x y y' : Int) : Option Nat :=
  (List.range m.numberOfSubswaths).foldl (fun last i =>
    if m.ValidColumn i x ∧ m.Tested i y y' then some i else last) none

/-- `FindFirstAndLastSubSwathIndices`. -/
def findFirstAndLastSubSwathIndices (tile : Rectangle) : Option Nat × Option Nat :=
  let firstIndex := m.firstValid tile.x tile.y (tile.y + tile.height - 1)
  let lastIndex := m.lastValid (tile.x + tile.width - 1) tile.y (tile.y + tile.height - 1)
  -- one that is not found gets the index of the other
  (firstIndex <|> lastIndex, lastIndex <|> firstIndex)

/-! ## The sub-swath of a pixel -/

/-- The pixel lies in the valid area of the sub-swath. -/
def Covers (i : Nat) (x y : Int) : Prop := m.ValidLine i y ∧ m.ValidColumn i x

instance (i : Nat) (x y : Int) : Decidable (m.Covers i x y) := inferInstanceAs (Decidable (_ ∧ _))

/-- The loop of `GetSubSwathIndex`, up to the second sub-swath that covers the pixel. -/
def subSwathLoop (x y : Int) : List Nat → Option Nat → Option Nat × Option Nat
  | [], swath0 => (swath0, none)
  | i :: is, none =>
    if m.Covers i x y then subSwathLoop x y is (some i) else subSwathLoop x y is none
  | i :: is, some swath0 =>
    if m.Covers i x y then (some swath0, some i) else subSwathLoop x y is (some swath0)

/-- The choice between two sub-swaths: the second one past the middle of their overlap. -/
def chosenSubSwath (x : Int) : Option Nat × Option Nat → Option Nat
  | (some swath0, some swath1) =>
    if m.slrTime x > ((m.info swath0).slrTimeToLastValidPixel +
        (m.info swath1).slrTimeToFirstValidPixel) / 2 then some swath1
    else some swath0
  | (swath0, _) => swath0

/-- `GetSubSwathIndex`, among the given sub-swaths. -/
def getSubSwathIndex (x y : Int) (subSwaths : List Nat) : Option Nat :=
  m.chosenSubSwath x (m.subSwathLoop x y subSwaths none)

/-! ## The source pixel of a pixel -/

/-- `GetSampleIndexInSourceProduct`. -/
def getSampleIndexInSourceProduct (i : Nat) (x : Int) : Int :=
  let sx := toInt ((m.slrTime x - (m.info i).slrTimeToFirstPixel) / m.targetDeltaSlrTime + 1 / 2)
  if sx < 0 then 0
  else if sx > (m.info i).numberOfSamples - 1 then (m.info i).numberOfSamples - 1 else sx

/-- `GetLineIndexInSourceProduct`. -/
def getLineIndexInSourceProduct (i : Nat) (y : Int) : Int :=
  let sy := toInt ((m.lineTime y - (m.info i).firstLineTime) / (m.info i).azimuthTimeInterval +
    1 / 2)
  if sy < 0 then 0
  else if sy > (m.info i).numberOfLines - 1 then (m.info i).numberOfLines - 1 else sy

def computeYMin (i : Nat) : Int :=
  stdRound (((m.info i).firstLineTime - m.targetFirstLineTime) / m.targetLineTimeInterval)

def computeYMax (i : Nat) : Int :=
  stdRound (((m.info i).lastLineTime - m.targetFirstLineTime) / m.targetLineTimeInterval)

def computeXMin (i : Nat) : Int :=
  stdRound (((m.info i).slrTimeToFirstValidPixel - m.targetSlrTimeToFirstPixel) /
    m.targetDeltaSlrTime)

def computeXMax (i : Nat) : Int :=
  stdRound (((m.info i).slrTimeToLastValidPixel - m.targetSlrTimeToFirstPixel) /
    m.targetDeltaSlrTime)

/-- `GetSourceRectangles`, for one of the sub-swaths. -/
def getSourceRectangle (i : Nat) (tile : Rectangle) : Rectangle :=
  let x0 := m.getSampleIndexInSourceProduct i tile.x
  let xMax := m.getSampleIndexInSourceProduct i (tile.x + tile.width - 1)
  let y0 := m.getLineIndexInSourceProduct i tile.y
  let yMax := m.getLineIndexInSourceProduct i (tile.y + tile.height - 1)
  ⟨x0, y0, xMax - x0 + 1, yMax - y0 + 1⟩

/-- The element for a source pixel in the buffer of the source tile, which holds the rows of the
source rectangle one after the other. -/
def readSource (i : Nat) (rect : Rectangle) (sx sy : Int) : Sample :=
  let index := sx - rect.x + (sy - rect.y) * rect.width
  if 0 ≤ index ∧ index < rect.width * rect.height then
    .source i (rect.x + index % rect.width) (rect.y + index / rect.width)
  else .outside

/-! ## One tile -/

/-- `ComputeTileInOneSwathFloat`, as a function of the pixel. -/
def computeTileInOneSwathFloat (tile : Rectangle) (i : Nat) (x y : Int) : Sample :=
  let firstY := max tile.y (m.computeYMin i)
  let lastY := min (tile.y + tile.height) (m.computeYMax i + 1)
  let firstX := max tile.x (m.computeXMin i)
  let lastX := min (tile.x + tile.width) (m.computeXMax i + 1)
  if (firstY ≤ y ∧ y < lastY) ∧ firstX ≤ x ∧ x < lastX then
    -- only the first column is looked up; the rest of the row is copied after it
    let sx := stdRound ((m.slrTime firstX - (m.info i).slrTimeToFirstPixel) / m.targetDeltaSlrTime)
    readSource i (m.getSourceRectangle i tile) (sx + (x - firstX))
      (m.getLineIndexInSourceProduct i y)
  else .unwritten

/-- `ComputeMultipleSubSwathFloat`, as a function of the pixel. -/
def computeMultipleSubSwathFloat (tile : Rectangle) (firstIndex lastIndex : Nat) (x y : Int) :
    Sample :=
  match m.getSubSwathIndex x y (List.range' firstIndex (lastIndex + 1 - firstIndex)) with
  | none => .unwritten
  | some i => readSource i (m.getSourceRectangle i tile) (m.getSampleIndexInSourceProduct i x)
      (m.getLineIndexInSourceProduct i y)

/-- `ComputeTileStack`, as a function of the pixel. -/
def computeTileStack (tile : Rectangle) (x y : Int) : Sample :=
  match m.findFirstAndLastSubSwathIndices tile with
  | (some firstIndex, some lastIndex) =>
    if lastIndex = firstIndex then m.computeTileInOneSwathFloat tile firstIndex x y
    else m.computeMultipleSubSwathFloat tile firstIndex lastIndex x y
  | _ => .unwritten

/-- `Compute`: the target after all the tiles. -/
def compute (tiles : List Rectangle) : Int → Int → Sample :=
  image m.computeTileStack (fun _ _ => .unwritten) tiles

/-! ## What the operator is for -/

/-- The target does not depend on the tiles, and no valid pixel is left out: the sub-swaths found
for a tile are around every one that covers a pixel of it, and where they are one, the two paths
agree. -/
structure MergeCorrect : Prop where
  independent : TileIndependent m.computeTileStack (fun _ _ => .unwritten) m.targetWidth
    m.targetHeight
  written : ∀ tiles, IsPartition m.targetWidth m.targetHeight tiles →
    ∀ x y, 0 ≤ x → x < m.targetWidth → 0 ≤ y → y < m.targetHeight →
      (∃ i < m.numberOfSubswaths, m.Covers i x y) →
        ∃ i sx sy, m.compute tiles x y = .source i sx sy
  surrounded : ∀ tile : Rectangle, tile.Inside m.targetWidth m.targetHeight →
    ∀ i < m.numberOfSubswaths, ∀ x y, tile.Contains x y → m.Covers i x y →
      ∃ firstIndex lastIndex,
        m.findFirstAndLastSubSwathIndices tile = (some firstIndex, some lastIndex) ∧
          firstIndex ≤ i ∧ i ≤ lastIndex
  samePaths : ∀ tile : Rectangle, tile.Inside m.targetWidth m.targetHeight →
    ∀ i, m.findFirstAndLastSubSwathIndices tile = (some i, some i) →
      ∀ x y, tile.Contains x y →
        m.computeTileInOneSwathFloat tile i x y = m.computeMultipleSubSwathFloat tile i i x y

end TopsarMergeOperator

end Alus.TopsarMerge
