import Mathlib.Algebra.Order.Field.Basic
import Mathlib.Data.Rat.Floor
import Mathlib.Tactic.Positivity
import Alus.Etad.Text
import Alus.Lib.Numerals

/-!
# SLC annotations

`ParseAnnotation` of `slc_metadata.cc` reads from the annotation of a Sentinel-1 SLC product what
the association with ETAD bursts needs: the identity of the product, its raster and the times of
its bursts. Numbers and times are exact.
-/

namespace Alus.Etad

open Alus.Lib
open Outcome (require)

namespace Slc

structure Burst (T : Type) where
  firstLineTime : T
  deriving DecidableEq, Repr

structure RasterGeometry (T : Type) where
  azimuthTimeInterval : T
  firstRangeTime : T
  rangeTimeInterval : T
  linesPerBurst : Nat
  samplesPerBurst : Nat
  totalLines : Nat
  totalSamples : Nat
  deriving DecidableEq, Repr

structure Metadata (T : Type) where
  productName : String
  mission : String
  mode : String
  swathId : String
  polarisation : String
  absoluteOrbit : Int
  startTime : T
  stopTime : T
  radarFrequencyHz : T
  raster : RasterGeometry T
  bursts : List (Burst T)
  deriving DecidableEq, Repr

/-- `LIGHT_SPEED_METRES_PER_SECOND`. -/
def lightSpeedMetresPerSecond : Nat := 299792458

/-- `PositiveSize`, of a text: digits only, as `std::stoull` reads them. -/
def positiveSizeText (text : String) : Outcome Nat := do
  require (text ≠ "" ∧ text.toList.all Char.isDigit)
  let value := text.toList.foldl (fun n (c : Char) => 10 * n + (c.toNat - 48)) 0
  require (value > 0 ∧ value ≤ sizeMax)
  return value

/-- `PositiveSize`, of a field. -/
def positiveSize (node : XmlNode) (field : String) : Outcome Nat := do
  let text ← readText node field
  positiveSizeText text

/-- `Upper`. -/
def upper (text : String) : String := String.ofList ((trimCopy text).toList.map Char.toUpper)

/-- `Upper(Text(..))`. -/
def readUpper (node : XmlNode) (field : String) : Outcome String := do
  let text ← readText node field
  return upper text

section Parse

variable {T : Type} [Field T] [LinearOrder T] (readers : Readers T)

/-- `metadata.bursts[i - 1].first_line_time < metadata.bursts[i].first_line_time`, for all. -/
def StrictlyIncreasing (bursts : List (Burst T)) : Prop :=
  (bursts.map Burst.firstLineTime).IsChain (· < ·)

instance (bursts : List (Burst T)) : Decidable (StrictlyIncreasing bursts) :=
  inferInstanceAs (Decidable (List.IsChain _ _))

/-- The raster of an annotation, as far as single values go. -/
def readRaster (root : XmlNode) : Outcome (RasterGeometry T) := do
  let image := (root.child "imageAnnotation").child "imageInformation"
  let azimuthTimeInterval ← readNumber readers image "azimuthTimeInterval"
  let firstRangeTime ← readNumber readers image "slantRangeTime"
  let rangePixelSpacing ← readNumber readers image "rangePixelSpacing"
  let totalLines ← positiveSize image "numberOfLines"
  let totalSamples ← positiveSize image "numberOfSamples"
  require (azimuthTimeInterval > 0 ∧ firstRangeTime > 0 ∧ rangePixelSpacing > 0)
  let rangeTimeInterval := 2 * rangePixelSpacing / lightSpeedMetresPerSecond
  let timing := root.child "swathTiming"
  let linesPerBurst ← positiveSize timing "linesPerBurst"
  let samplesPerBurst ← positiveSize timing "samplesPerBurst"
  return ⟨azimuthTimeInterval, firstRangeTime, rangeTimeInterval, linesPerBurst, samplesPerBurst,
    totalLines, totalSamples⟩

/-- `burstList@count`. -/
def readDeclaredCount (burstList : XmlNode) : Outcome Nat :=
  match burstList.attributeValue "count" with
  | some text => positiveSizeText text
  | none => .throws

/-- `ParseAnnotation`, of the document that the annotation loads as; a null handle if it does
not load. Dividing by an empty list of bursts cannot happen: its count is positive. -/
def parseAnnotation (document : XmlNode) (productName : String) : Outcome (Metadata T) := do
  require document.isSome
  let root := document.child "product"
  require root.isSome
  let productName := trimCopy productName
  require (productName ≠ "")
  let header := root.child "adsHeader"
  let mission ← readUpper header "missionId"
  let mode ← readUpper header "mode"
  let swathId ← readUpper header "swath"
  let polarisation ← readUpper header "polarisation"
  let orbitText ← readText header "absoluteOrbitNumber"
  let absoluteOrbit ← positiveInteger orbitText
  let startTime ← readTime readers header "startTime"
  let stopTime ← readTime readers header "stopTime"
  let productType ← readUpper header "productType"
  require ("S1".toList.isPrefixOf mission.toList ∧ mode = "IW" ∧ productType = "SLC")
  require (swathId = "IW1" ∨ swathId = "IW2" ∨ swathId = "IW3")
  require (polarisation = "VV" ∨ polarisation = "VH" ∨ polarisation = "HH" ∨ polarisation = "HV")
  require (startTime ≤ stopTime)
  let radarFrequencyHz ← readNumber readers
    ((root.child "generalAnnotation").child "productInformation") "radarFrequency"
  require (radarFrequencyHz > 0)
  let raster ← readRaster readers root
  let burstList := (root.child "swathTiming").child "burstList"
  let declaredCount ← readDeclaredCount burstList
  let bursts ← Outcome.collect ((burstList.children "burst").map fun burst => do
    let azimuthTime ← readTime readers burst "azimuthTime"
    return ⟨azimuthTime⟩)
  require (bursts.length = declaredCount)
  require (raster.samplesPerBurst = raster.totalSamples)
  require (raster.linesPerBurst ≤ sizeMax / bursts.length ∧
    raster.linesPerBurst * bursts.length = raster.totalLines)
  require (StrictlyIncreasing bursts)
  return ⟨productName, mission, mode, swathId, polarisation, absoluteOrbit, startTime, stopTime,
    radarFrequencyHz, raster, bursts⟩

end Parse

/-! ## What the checks establish -/

section Raster

variable {T : Type} [Field T] [LinearOrder T] {readers : Readers T}

/-- The intervals of a raster are positive and its bursts are not empty. -/
structure RasterGeometry.Valid (raster : RasterGeometry T) : Prop where
  azimuthTimeInterval_pos : 0 < raster.azimuthTimeInterval
  firstRangeTime_pos : 0 < raster.firstRangeTime
  rangeTimeInterval_pos : 0 < raster.rangeTimeInterval
  linesPerBurst_pos : 0 < raster.linesPerBurst
  samplesPerBurst_pos : 0 < raster.samplesPerBurst

theorem positiveSize_eq_ok {node : XmlNode} {field : String} {value : Nat}
    (h : positiveSize node field = .ok value) : 0 < value := by
  simp only [positiveSize, positiveSizeText, Outcome.bind_eq_ok, Outcome.require_eq_ok,
    Outcome.pure_eq, Outcome.ok.injEq] at h
  obtain ⟨text, -, -, -, -, hvalue, rfl⟩ := h
  exact hvalue.1

theorem readRaster_eq_ok [IsStrictOrderedRing T] {root : XmlNode} {raster : RasterGeometry T}
    (h : readRaster readers root = .ok raster) : raster.Valid := by
  simp only [readRaster, Outcome.bind_eq_ok, Outcome.require_eq_ok, Outcome.pure_eq,
    Outcome.ok.injEq] at h
  obtain ⟨azimuth, -, range, -, spacing, -, totalLines, -, totalSamples, -, -,
    ⟨hazimuth, hrange, hspacing⟩, lines, hlines, samples, hsamples, rfl⟩ := h
  have hlight : (0 : T) < lightSpeedMetresPerSecond := by
    exact_mod_cast (show 0 < lightSpeedMetresPerSecond by decide)
  exact ⟨hazimuth, hrange, div_pos (mul_pos two_pos hspacing) hlight, positiveSize_eq_ok hlines,
    positiveSize_eq_ok hsamples⟩

theorem parseAnnotation_raster_valid [IsStrictOrderedRing T] {document : XmlNode}
    {productName : String} {metadata : Metadata T}
    (h : parseAnnotation readers document productName = .ok metadata) : metadata.raster.Valid := by
  unfold parseAnnotation at h
  -- the texts of the header, the frequency and their checks
  iterate 18 refine Outcome.of_bind_eq_ok h fun _ _ h => ?_
  refine Outcome.of_bind_eq_ok h fun raster hraster h => ?_
  -- the bursts and their checks
  iterate 6 refine Outcome.of_bind_eq_ok h fun _ _ h => ?_
  cases h
  exact readRaster_eq_ok hraster

end Raster

/-! ## An annotation -/

section Sample

/-- A product with one burst of ten lines and five samples, a second apart. -/
def sampleDocument : XmlNode :=
  some (.element "" [] [.element "product" []
    [.element "adsHeader" []
        [leaf "missionId" "S1A", leaf "mode" "IW", leaf "swath" "IW1", leaf "polarisation" "VV",
          leaf "productType" "SLC", leaf "absoluteOrbitNumber" "42",
          leaf "startTime" "2000-01-01T00:00:10", leaf "stopTime" "2000-01-01T00:00:20"],
      .element "generalAnnotation" []
        [.element "productInformation" [] [leaf "radarFrequency" "5405000454"]],
      .element "imageAnnotation" []
        [.element "imageInformation" []
          [leaf "azimuthTimeInterval" "1", leaf "slantRangeTime" "11",
            leaf "rangePixelSpacing" "149896229", leaf "numberOfLines" "10",
            leaf "numberOfSamples" "5"]],
      .element "swathTiming" []
        [leaf "linesPerBurst" "10", leaf "samplesPerBurst" "5",
          .element "burstList" [("count", "1")]
            [.element "burst" [] [leaf "azimuthTime" "2000-01-01T00:00:10.050000"]]]]])

def sampleMetadata : Metadata ℚ where
  productName := "S1A_IW_SLC__1SDV_20000101T000010_20000101T000020_000042_2"
  mission := "S1A"
  mode := "IW"
  swathId := "IW1"
  polarisation := "VV"
  absoluteOrbit := 42
  startTime := 10
  stopTime := 20
  radarFrequencyHz := 5405000454
  raster := ⟨1, 11, 1, 10, 5, 10, 5⟩
  bursts := [⟨201 / 20⟩]

theorem parseAnnotation_sample :
    parseAnnotation sampleReaders sampleDocument
      "S1A_IW_SLC__1SDV_20000101T000010_20000101T000020_000042_2" = .ok sampleMetadata := by
  decide +kernel

end Sample

end Slc

end Alus.Etad
