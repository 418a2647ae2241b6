import Mathlib.Algebra.Order.Group.Abs
import Alus.Lib.Interpolation
import Alus.Lib.Machine
import Alus.Lib.Tiling
import Alus.Lib.Numerals

/-!
# Noise table of a GRD tile

`BuildNoiseLutForTOPSGRD` fills the noise table of one tile. The azimuth noise vectors are blocks of
the image, one per burst or part of a swath; the range noise vectors are profiles across the image,
each at an azimuth time. A block gives its part of the tile the product of its azimuth noise and the
range noise interpolated between the profiles whose times are in the block. The numbers are elements
of an ordered field: rounding is not modelled. The warnings of the source change nothing and are
left out.
-/

namespace Alus.ThermalNoise

open Alus.Lib

/-! ## Metadata -/

/-- The area of an azimuth noise vector, its last line and last sample included. -/
structure NoiseBlock where
  swath : String
  firstAzimuthLine : Int
  firstRangeSample : Int
  lastAzimuthLine : Int
  lastRangeSample : Int
  deriving DecidableEq, Repr

section Metadata

variable (T : Type) [Field T] [LinearOrder T]

/-- Interpolation between neighbours takes the lines in increasing order, as the product lists them;
the parser rejects tables of different sizes and empty ones. -/
structure NoiseAzimuthVector extends NoiseBlock where
  lines : List Int
  noiseAzimuthLut : List T
  increasing : lines.Pairwise (· < ·)
  sizes : noiseAzimuthLut.length = lines.length
  nonempty : lines ≠ []

structure NoiseVector where
  timeMjd : T
  pixels : List Int
  noiseLut : List T
  increasing : pixels.Pairwise (· < ·)
  sizes : noiseLut.length = pixels.length
  nonempty : pixels ≠ []

/-- The maps, in the order of their keys. -/
structure TimeMaps where
  t0Map : List (String × T)
  deltaTMap : List (String × T)
  swathStartEndTimesMap : List (String × List T)
  advancing : ∀ p ∈ deltaTMap, 0 < p.2

structure ThermalNoiseInfo where
  noiseAzimuthVectors : List (NoiseAzimuthVector T)
  noiseRangeVectors : List (NoiseVector T)
  timeMaps : TimeMaps T
  ordered : (noiseRangeVectors.map (·.timeMjd)).Pairwise (· < ·)

end Metadata

variable {T : Type} [Field T] [LinearOrder T]

/-! ## Interpolation -/

/-- The index before the first knot after the position, or the last but one. -/
def indexBefore {K : Type} [LinearOrder K] (s : K) (knots : List K) : Int :=
  match knots.findIdx? (s < ·) with
  | some i => if 0 < i then i - 1 else 0
  | none => knots.length - 2

def getSampleIndex (sample : Int) (pixels : List Int) : Int := indexBefore sample pixels

def interpolateNoise (p1 p2 : Int) (noise1 noise2 : T) (sampleIndex : Int) : T :=
  if p1 = p2 then 0
  else noise1 + ((sampleIndex - p1 : Int) : T) / ((p2 - p1 : Int) : T) * (noise2 - noise1)

def interpolateNoiseByTime (t1 t2 noise1 noise2 azimuthTime : T) : T :=
  if t1 = t2 then 0 else noise1 + (azimuthTime - t1) / (t2 - t1) * (noise2 - noise1)

/-- The loop over the samples, with the index of the segment it has come to. -/
def interpolateSamples (pixels : List Int) (noiseLut : List T) :
    Int → List Int → Outcome (List T)
  | _, [] => .ok []
  | sampleIndex, s :: samples => do
    let next ← vectorAt pixels (sampleIndex + 1)
    -- the index moves on by one knot for each sample, and not past the last segment
    let sampleIndex :=
      if s > next ∧ sampleIndex < pixels.length - 2 then sampleIndex + 1 else sampleIndex
    let p1 ← vectorAt pixels sampleIndex
    let p2 ← vectorAt pixels (sampleIndex + 1)
    let noise1 ← vectorAt noiseLut sampleIndex
    let noise2 ← vectorAt noiseLut (sampleIndex + 1)
    let values ← interpolateSamples pixels noiseLut sampleIndex samples
    return interpolateNoise p1 p2 noise1 noise2 s :: values

def constantSamples (noiseLut : List T) (samples : List Int) : Outcome (List T) := do
  let noise ← vectorIndex noiseLut 0
  return samples.map fun _ => noise

/-- `FillRangeNoiseWithInterpolatedValues`. -/
def fillRangeNoise (nv : NoiseVector T) (firstRangeSample lastRangeSample : Int) :
    Outcome (List T) :=
  let samples := intRange firstRangeSample (lastRangeSample + 1)
  if nv.pixels.length = 0 then .throws
  else if nv.pixels.length = 1 then constantSamples nv.noiseLut samples
  else interpolateSamples nv.pixels nv.noiseLut (getSampleIndex firstRangeSample nv.pixels) samples

/-- `FillAzimuthNoiseVectorWithInterpolatedValues`. -/
def fillAzimuthNoise (v : NoiseAzimuthVector T) (firstAzimuthLine lastAzimuthLine : Int) :
    Outcome (List T) :=
  let samples := intRange firstAzimuthLine (lastAzimuthLine + 1)
  if v.lines.length < 2 then constantSamples v.noiseAzimuthLut samples
  else interpolateSamples v.lines v.noiseAzimuthLut (getSampleIndex firstAzimuthLine v.lines)
    samples

/-! ## The range vectors of a block -/

/-- A round of the search for the vector closest to the centre of the block, among those in the
times of the swath. -/
def closerVector (blockCentreTime front back : T) (closest : Option (T × Nat)) (v : T × Nat) :
    Option (T × Nat) :=
  if v.1 < front ∨ v.1 > back then closest
  else
    match closest with
    | none => some v
    | some w => if |blockCentreTime - v.1| < |blockCentreTime - w.1| then some v else some w

/-- The indices of the range vectors in the times of a block. Of the vectors only the times are
read. -/
def determineNoiseVectorIndices (startAzTime endAzTime : T) (azimuthTimes : List T)
    (swathStartEndTimes : List T) : List Nat :=
  let results := (azimuthTimes.zipIdx.filter fun v => v.1 ≥ startAzTime ∧ v.1 ≤ endAzTime).map (·.2)
  match results, swathStartEndTimes with
  -- no vector in the block: the one nearest to its centre, if the swath's times are known
  | [], [front, back] =>
    let blockCentreTime := (startAzTime + endAzTime) / 2
    match azimuthTimes.zipIdx.foldl (closerVector blockCentreTime front back) none with
    | some v => [v.2]
    | none => []
  | results, _ => results

namespace TimeMaps

/-- The time of the first line and the time between lines; none if a map is empty. -/
def lineTimes (maps : TimeMaps T) : Option (T × T) :=
  match maps.t0Map, maps.deltaTMap with
  | t0 :: _, deltaT :: _ => some (t0.2, deltaT.2)
  | _, _ => none

/-- The range vectors of a block, by the times of its first and last line. -/
def blockIndices (maps : TimeMaps T) (firstLineTime lineTimeInterval : T) (azimuthTimes : List T)
    (nav : NoiseBlock) : List Nat :=
  let startAzimTime := firstLineTime + nav.firstAzimuthLine * lineTimeInterval
  let endAzimTime := firstLineTime + nav.lastAzimuthLine * lineTimeInterval
  determineNoiseVectorIndices startAzimTime endAzimTime azimuthTimes
    ((maps.swathStartEndTimesMap.lookup nav.swath).getD [])

end TimeMaps

/-! ## The noise matrix -/

/-- The part of a tile that a block reaches; the maxima are included. -/
structure Overlap where
  nx0 : Int
  nxMax : Int
  ny0 : Int
  nyMax : Int
  deriving DecidableEq, Repr

def overlap (tile : Rectangle) (nav : NoiseBlock) : Overlap where
  nx0 := max tile.x nav.firstRangeSample
  nxMax := min (tile.x + tile.width - 1) nav.lastRangeSample
  ny0 := max tile.y nav.firstAzimuthLine
  nyMax := min (tile.y + tile.height - 1) nav.lastAzimuthLine

/-- `values[row][column] = v`. -/
def setValue (values : Int → Int → T) (row column : Int) (v : T) : Int → Int → T :=
  fun r c => if r = row ∧ c = column then v else values r c

/-- A column of the overlap when one range vector is selected. -/
def constantColumn (tile : Rectangle) (o : Overlap) (ranges : List (List T)) (azimuth : List T)
    (x : Int) (values : Int → Int → T) : Outcome (Int → Int → T) :=
  (intRange o.ny0 (o.nyMax + 1)).foldlM (fun values y => do
    let a ← vectorAt azimuth (y - o.ny0)
    let front ← vectorIndex ranges 0
    let r ← vectorAt front (x - o.nx0)
    return setValue values (y - tile.y) (x - tile.x) (a * r)) values

/-- A column of the overlap when there are several, with the index of the time segment. -/
def timeColumn (tile : Rectangle) (o : Overlap) (firstLineTime lineTimeInterval : T)
    (times : List T) (ranges : List (List T)) (azimuth : List T) (x : Int) :
    Int → List Int → (Int → Int → T) → Outcome (Int → Int → T)
  | _, [], values => .ok values
  | timeIndex, y :: lines, values => do
    let azimuthTime := firstLineTime + lineTimeInterval * y
    let next ← vectorIndex times (timeIndex + 1)
    let timeIndex :=
      if azimuthTime > next ∧ timeIndex < times.length - 2 then timeIndex + 1 else timeIndex
    let a ← vectorIndex azimuth (y - o.ny0)
    let t1 ← vectorIndex times timeIndex
    let t2 ← vectorIndex times (timeIndex + 1)
    let r1 ← vectorIndex ranges timeIndex
    let r2 ← vectorIndex ranges (timeIndex + 1)
    let noise1 ← vectorIndex r1 (x - o.nx0)
    let noise2 ← vectorIndex r2 (x - o.nx0)
    timeColumn tile o firstLineTime lineTimeInterval times ranges azimuth x timeIndex lines
      (setValue values (y - tile.y) (x - tile.x)
        (a * interpolateNoiseByTime t1 t2 noise1 noise2 azimuthTime))

def computeNoiseMatrix (tile : Rectangle) (o : Overlap) (firstLineTime lineTimeInterval : T)
    (times : List T) (ranges : List (List T)) (azimuth : List T) (values : Int → Int → T) :
    Outcome (Int → Int → T) :=
  let columns := intRange o.nx0 (o.nxMax + 1)
  if times.length = 1 then
    columns.foldlM (fun values x => constantColumn tile o ranges azimuth x values) values
  else
    let firstTimeIndex := indexBefore (firstLineTime + lineTimeInterval * o.ny0) times
    columns.foldlM (fun values x =>
      timeColumn tile o firstLineTime lineTimeInterval times ranges azimuth x firstTimeIndex
        (intRange o.ny0 (o.nyMax + 1)) values) values

/-! ## The noise table -/

/-- The time of a selected range vector, and its noise over the samples of the overlap. -/
def rangeProfile (info : ThermalNoiseInfo T) (o : Overlap) (index : Nat) :
    Outcome (T × List T) := do
  let nv ← vectorAt info.noiseRangeVectors index
  let values ← fillRangeNoise nv o.nx0 o.nxMax
  return (nv.timeMjd, values)

/-- The body of the loop over the azimuth noise vectors. -/
def addBlock (info : ThermalNoiseInfo T) (tile : Rectangle) (firstLineTime lineTimeInterval : T)
    (noiseMatrix : Int → Int → T) (nav : NoiseAzimuthVector T) : Outcome (Int → Int → T) :=
  let o := overlap tile nav.toNoiseBlock
  -- an overlap of one column or one line is skipped as well
  if o.nx0 ≥ o.nxMax ∨ o.ny0 ≥ o.nyMax then .ok noiseMatrix
  else
    let indices := info.timeMaps.blockIndices firstLineTime lineTimeInterval
      (info.noiseRangeVectors.map (·.timeMjd)) nav.toNoiseBlock
    if indices = [] then .ok noiseMatrix
    else do
      let profiles ← Outcome.collect (indices.map (rangeProfile info o))
      let azimuth ← fillAzimuthNoise nav o.ny0 o.nyMax
      computeNoiseMatrix tile o firstLineTime lineTimeInterval (profiles.map (·.1))
        (profiles.map (·.2)) azimuth noiseMatrix

/-- `BuildNoiseLutForTOPSGRD`; rows and columns are counted from the tile's first. -/
def buildNoiseLut (tile : Rectangle) (info : ThermalNoiseInfo T) : Outcome (Int → Int → T) :=
  match info.timeMaps.lineTimes with
  | none => .throws
  | some (firstLineTime, lineTimeInterval) =>
    info.noiseAzimuthVectors.foldlM (addBlock info tile firstLineTime lineTimeInterval)
      fun _ _ => 0

/-! ## The tiles of the band -/

def getIntersection (r1 r2 : Rectangle) : Rectangle :=
  let targetX := max r1.x r2.x
  let targetY := max r1.y r2.y
  ⟨targetX, targetY, min (r1.x + r1.width) (r2.x + r2.width) - targetX,
    min (r1.y + r1.height) (r2.y + r2.height) - targetY⟩

def calculateTiles (tileWidth tileHeight xMax yMax : Int) : List Rectangle :=
  let xCount := xMax.tdiv tileWidth + 1
  let yCount := yMax.tdiv tileHeight + 1
  (intRange 0 yCount).flatMap fun yIndex =>
    (intRange 0 xCount).filterMap fun xIndex =>
      let rectangle : Rectangle := ⟨xIndex * tileWidth, yIndex * tileHeight, tileWidth, tileHeight⟩
      let intersection := getIntersection rectangle ⟨0, 0, xMax, yMax⟩
      if rectangle.x > xMax ∨ rectangle.y > yMax then none
      else if intersection.width ≠ 0 ∧ intersection.height ≠ 0 then some intersection
      else none

end Alus.ThermalNoise
