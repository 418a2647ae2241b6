import Mathlib.Algebra.Order.Field.Basic
import Mathlib.Data.List.Dedup
import Mathlib.Data.List.Perm.Subperm
import Mathlib.Data.Rat.Floor
import Alus.Etad.Text

/-!
# ETAD annotations

`ParseAnnotation` of `sentinel1_etad_product.cc` reads the metadata of an ETAD product from its
XML annotation. The input products list, per swath, the indices of the bursts they contain; a
second table has the bursts themselves. Both are checked against each other, and the lookups
`GetBurst` and `FindBurst` go from the one to the other.

Numbers and times are exact. A `std::set` that a loop fills with what it pushes to a vector is
that vector's content.
-/

namespace Alus.Etad

open Alus.Lib
open Outcome (require)

/-- Time bounds in seconds. -/
structure Coverage (T : Type) where
  azimuthMin : T
  azimuthMax : T
  rangeMin : T
  rangeMax : T
  deriving DecidableEq, Repr

structure Burst (T : Type) where
  bIndex : Int
  pIndex : Int
  sIndex : Int
  swathId : String
  coverage : Coverage T
  gridStartAzimuth : T
  gridStartRange : T
  samplingAzimuth : T
  samplingRange : T
  rows : Int
  columns : Int
  corners : List (T × T)
  deriving DecidableEq, Repr

structure Swath where
  swathId : String
  sIndex : Int
  burstIndices : List Int
  deriving DecidableEq, Repr

structure Acquisition (T : Type) where
  productId : String
  pIndex : Int
  startTime : T
  stopTime : T
  swaths : List Swath
  deriving DecidableEq, Repr

structure Calibration (T : Type) where
  swathId : String
  polarisation : String
  rangeSeconds : T
  azimuthSeconds : T
  rangeOffsetSeconds : T
  azimuthOffsetSeconds : T
  deriving DecidableEq, Repr

structure Metadata (T : Type) where
  mission : String
  mode : String
  coverage : Coverage T
  carrierFrequencyHz : T
  acquisitions : List (Acquisition T)
  bursts : List (Burst T)
  calibrations : List (Calibration T)
  deriving DecidableEq, Repr

section Parse

variable {T : Type} [Field T] [LinearOrder T] (readers : Readers T)

/-- `ReadCoverage`. -/
def readCoverage (node : XmlNode) : Outcome (Coverage T) := do
  let azimuthMin ← readTime readers node "azimuthTimeMin"
  let azimuthMax ← readTime readers node "azimuthTimeMax"
  let rangeMin ← readNumber readers node "rangeTimeMin"
  let rangeMax ← readNumber readers node "rangeTimeMax"
  require (azimuthMin < azimuthMax ∧ rangeMin < rangeMax)
  return ⟨azimuthMin, azimuthMax, rangeMin, rangeMax⟩

/-- `GridSize`. -/
def gridSize (rows columns : Int) : Outcome Int := do
  require (rows ≥ 2 ∧ columns ≥ 2 ∧ rows ≤ (sizeMax : Int) / columns)
  return rows * columns

/-- `ReadCalibrations`. -/
def readCalibrations (aux : XmlNode) : Outcome (List (Calibration T)) := do
  let directCalibrations := aux.child "instrumentTimingCalibrationList"
  let hasDirectCalibrations := directCalibrations.isSome
  let list :=
    if hasDirectCalibrations then directCalibrations
    else aux.child "instrumentTimingCalibrationOffsetList"
  let entryName :=
    if hasDirectCalibrations then "instrumentTimingCalibration"
    else "instrumentTimingCalibrationOffset"
  let calibrations ← Outcome.collect ((list.children entryName).map fun node => do
    let swathId ← readText node "swath"
    let polarisation ← readText node "polarisation"
    if hasDirectCalibrations then
      let rangeSeconds ← readNumber readers node "rangeCalibration"
      let azimuthSeconds ← readNumber readers node "azimuthCalibration"
      return ⟨swathId, polarisation, rangeSeconds, azimuthSeconds, 0, 0⟩
    else
      -- a list of offsets has one calibration for all its entries
      let reference := aux.child "instrumentTimingCalibrationReference"
      let rangeSeconds ← readNumber readers reference "rangeCalibration"
      let azimuthSeconds ← readNumber readers reference "azimuthCalibration"
      let rangeOffsetSeconds ← readNumber readers node "rangeOffset"
      let azimuthOffsetSeconds ← readNumber readers node "azimuthOffset"
      return ⟨swathId, polarisation, rangeSeconds, azimuthSeconds, rangeOffsetSeconds,
        azimuthOffsetSeconds⟩)
  checkCount list calibrations.length
  return calibrations

/-! ## Input products -/

/-- One `bIndex` of a swath. -/
def readBurstIndex (burstIndices : List Int) (index : XmlNode) : Outcome (List Int) := do
  let bIndex ← positiveInteger (trimCopy index.childValue)
  require (bIndex ∉ burstIndices)
  return burstIndices ++ [bIndex]

/-- One `swath` of an input product. -/
def readSwath (swaths : List Swath) (node : XmlNode) : Outcome (List Swath) := do
  let sIndex ← readIndex node "sIndex"
  let swathId ← readText node "swathID"
  require (sIndex ∉ swaths.map Swath.sIndex ∧ swathId ∉ swaths.map Swath.swathId)
  require (swathId = "IW1" ∨ swathId = "IW2" ∨ swathId = "IW3")
  let indices := node.child "bIndexList"
  let burstIndices ← (indices.children "bIndex").foldlM readBurstIndex []
  checkCount indices burstIndices.length
  return swaths ++ [⟨swathId, sIndex, burstIndices⟩]

/-- One `inputProduct`. -/
def readAcquisition (acquisitions : List (Acquisition T)) (node : XmlNode) :
    Outcome (List (Acquisition T)) := do
  let pIndex ← readIndex node "pIndex"
  require (pIndex ∉ acquisitions.map Acquisition.pIndex)
  let productId ← readText node "productID"
  let startTime ← readTime readers node "startTime"
  let stopTime ← readTime readers node "stopTime"
  require (startTime ≤ stopTime)
  let swathList := node.child "swathList"
  let swaths ← (swathList.children "swath").foldlM readSwath []
  checkCount swathList swaths.length
  return acquisitions ++ [⟨productId, pIndex, startTime, stopTime, swaths⟩]

/-! ## The burst table -/

/-- `CORNERS`. -/
def corners : List String :=
  ["EarlyAzimuthNearRange", "EarlyAzimuthFarRange", "LateAzimuthNearRange", "LateAzimuthFarRange"]

/-- One corner of a burst. -/
def readCorner (spatial : XmlNode) (name : String) : Outcome (T × T) := do
  let corner := spatial.findChildByAttribute "coordinates" "corner" name
  let latitude ← readNumber readers corner "latitude"
  let longitude ← readNumber readers corner "longitude"
  return (latitude, longitude)

/-- One `etadBurst`. -/
def readBurst (bursts : List (Burst T)) (node : XmlNode) : Outcome (List (Burst T)) := do
  let data := node.child "burstData"
  let bIndex ← readIndex data "bIndex"
  let pIndex ← readIndex data "pIndex"
  let sIndex ← readIndex data "sIndex"
  let swathId ← readText data "swathID"
  require (bIndex ∉ bursts.map Burst.bIndex)
  let coverage ← readCoverage readers ((node.child "burstCoverage").child "temporalCoverage")
  let spatial := (node.child "burstCoverage").child "spatialCoverage"
  let burstCorners ← Outcome.collect (corners.map (readCorner readers spatial))
  let grid := node.child "gridInformation"
  let gridStartAzimuth ← readNumber readers grid "gridStartAzimuthTime"
  let gridStartRange ← readNumber readers grid "gridStartRangeTime"
  let samplingAzimuth ← readNumber readers (grid.child "gridSampling") "azimuth"
  let samplingRange ← readNumber readers (grid.child "gridSampling") "range"
  require (samplingAzimuth > 0 ∧ samplingRange > 0)
  let rowsText ← readText (grid.child "gridDimensions") "azimuthExtent"
  let rows ← positiveInteger rowsText
  let columnsText ← readText (grid.child "gridDimensions") "rangeExtent"
  let columns ← positiveInteger columnsText
  let _ ← gridSize rows columns
  return bursts ++ [⟨bIndex, pIndex, sIndex, swathId, coverage, gridStartAzimuth, gridStartRange,
    samplingAzimuth, samplingRange, rows, columns, burstCorners⟩]

/-! ## Lookups -/

omit [Field T] [LinearOrder T] in
/-- `GetBurst`. -/
def getBurst (metadata : Metadata T) (bIndex : Int) : Outcome (Burst T) :=
  match metadata.bursts.find? fun burst => burst.bIndex = bIndex with
  | some burst => .ok burst
  | none => .throws

/-- The time point lies strictly inside. -/
def Coverage.Contains (coverage : Coverage T) (azimuthTime rangeTime : T) : Prop :=
  azimuthTime > coverage.azimuthMin ∧ azimuthTime < coverage.azimuthMax ∧
    rangeTime > coverage.rangeMin ∧ rangeTime < coverage.rangeMax

instance (coverage : Coverage T) (azimuthTime rangeTime : T) :
    Decidable (coverage.Contains azimuthTime rangeTime) :=
  inferInstanceAs (Decidable (_ ∧ _))

/-- The first of the listed bursts that contains the time point. -/
def firstContaining (metadata : Metadata T) (azimuthTime rangeTime : T) :
    List Int → Outcome (Option (Burst T))
  | [] => .ok none
  | bIndex :: burstIndices => do
    let burst ← getBurst metadata bIndex
    if burst.coverage.Contains azimuthTime rangeTime then return some burst
    else firstContaining metadata azimuthTime rangeTime burstIndices

/-- `FindBurst`; `none` is the null pointer. -/
def findBurst (metadata : Metadata T) (pIndex : Int) (swathId : String)
    (azimuthTime rangeTime : T) : Outcome (Option (Burst T)) :=
  let acquisitions := metadata.acquisitions.filter fun acquisition => acquisition.pIndex = pIndex
  let swaths := acquisitions.flatMap fun acquisition =>
    acquisition.swaths.filter fun swath => swath.swathId = swathId
  firstContaining metadata azimuthTime rangeTime (swaths.flatMap Swath.burstIndices)

/-! ## The annotation -/

/-- One reference from a swath to the burst table. -/
def checkReference (metadata : Metadata T) (acquisition : Acquisition T) (swath : Swath)
    (referenced : List Int) (bIndex : Int) : Outcome (List Int) := do
  let burst ← getBurst metadata bIndex
  require (burst.pIndex = acquisition.pIndex ∧ burst.sIndex = swath.sIndex ∧
    burst.swathId = swath.swathId ∧ bIndex ∉ referenced)
  return referenced ++ [bIndex]

def checkSwath (metadata : Metadata T) (acquisition : Acquisition T) (referenced : List Int)
    (swath : Swath) : Outcome (List Int) :=
  swath.burstIndices.foldlM (checkReference metadata acquisition swath) referenced

def checkAcquisition (metadata : Metadata T) (referenced : List Int)
    (acquisition : Acquisition T) : Outcome (List Int) :=
  acquisition.swaths.foldlM (checkSwath metadata acquisition) referenced

/-- `metadata.mission.rfind("S1", 0) == 0`. -/
def isSentinel1 (mission : String) : Bool := "S1".toList.isPrefixOf mission.toList

/-- `ParseAnnotation`, of the document that the annotation loads as; a null handle if it does
not load. -/
def parseAnnotation (document : XmlNode) : Outcome (Metadata T) := do
  require document.isSome
  let root := document.child "etadProduct"
  require root.isSome
  let header := root.child "etadHeader"
  let mission ← readText header "missionId"
  let mode ← readText header "mode"
  let productType ← readText header "productType"
  require (isSentinel1 mission ∧ mode = "IW" ∧ productType = "SLC")
  let coverage ← readCoverage readers ((root.child "productCoverage").child "temporalCoverage")
  let carrierFrequencyHz ← readNumber readers (root.child "productInformation") "carrierFrequency"
  require (carrierFrequencyHz > 0)
  let components := root.child "productComponents"
  let products := components.child "inputProductList"
  let acquisitions ← (products.children "inputProduct").foldlM (readAcquisition readers) []
  checkCount products acquisitions.length
  let productCountText ← readText components "numberOfInputProducts"
  let productCount ← positiveInteger productCountText
  require (productCount = acquisitions.length)
  let burstList := root.child "etadBurstList"
  let bursts ← (burstList.children "etadBurst").foldlM (readBurst readers) []
  checkCount burstList bursts.length
  let burstCountText ← readText components "numberOfBursts"
  let burstCount ← positiveInteger burstCountText
  require (burstCount = bursts.length)
  let metadata : Metadata T :=
    ⟨mission, mode, coverage, carrierFrequencyHz, acquisitions, bursts, []⟩
  -- every reference names a burst of the table, and every burst is referenced
  let referenced ← acquisitions.foldlM (checkAcquisition metadata) []
  require (referenced.length = bursts.length)
  let allSwaths := (acquisitions.flatMap fun acquisition =>
    acquisition.swaths.map Swath.swathId).dedup
  let swathCountText ← readText components "numberOfSwaths"
  let swathCount ← positiveInteger swathCountText
  require (swathCount = allSwaths.length)
  let calibrations ← readCalibrations readers
    (((root.child "processingInformation").child "auxInputData").child "auxSetap")
  return { metadata with calibrations := calibrations }

end Parse

/-! ## What the checks establish -/

section Consistent

variable {T : Type} [Field T] [LinearOrder T]

/-- The bounds and the grid of a burst. -/
structure Burst.Valid (burst : Burst T) : Prop where
  azimuth_lt : burst.coverage.azimuthMin < burst.coverage.azimuthMax
  range_lt : burst.coverage.rangeMin < burst.coverage.rangeMax
  samplingAzimuth_pos : 0 < burst.samplingAzimuth
  samplingRange_pos : 0 < burst.samplingRange
  two_le_rows : 2 ≤ burst.rows
  two_le_columns : 2 ≤ burst.columns

/-- The burst indices that the input products list, in their order. -/
def Metadata.listed (metadata : Metadata T) : List Int :=
  metadata.acquisitions.flatMap fun acquisition =>
    acquisition.swaths.flatMap Swath.burstIndices

/-- The two tables are one to one, and agree. -/
structure Metadata.Consistent (metadata : Metadata T) : Prop where
  bIndex_nodup : (metadata.bursts.map Burst.bIndex).Nodup
  pIndex_nodup : (metadata.acquisitions.map Acquisition.pIndex).Nodup
  swathId_nodup : ∀ acquisition ∈ metadata.acquisitions,
    (acquisition.swaths.map Swath.swathId).Nodup
  sIndex_nodup : ∀ acquisition ∈ metadata.acquisitions,
    (acquisition.swaths.map Swath.sIndex).Nodup
  listed_perm : metadata.listed.Perm (metadata.bursts.map Burst.bIndex)
  listed_agrees : ∀ acquisition ∈ metadata.acquisitions, ∀ swath ∈ acquisition.swaths,
    ∀ bIndex ∈ swath.burstIndices, ∃ burst ∈ metadata.bursts, burst.bIndex = bIndex ∧
      burst.pIndex = acquisition.pIndex ∧ burst.sIndex = swath.sIndex ∧
        burst.swathId = swath.swathId

theorem nodup_map_append {α β : Type} {f : α → β} {l : List α} {a : α} (hl : (l.map f).Nodup)
    (ha : f a ∉ l.map f) : ((l ++ [a]).map f).Nodup := by
  rw [List.map_append, List.map_singleton]
  exact hl.append (List.nodup_singleton _) (List.disjoint_singleton.mpr ha)

/-- A table whose elements are appended one by one, each with a key that is not there yet. -/
theorem nodup_of_appends {α β ι : Type} {read : List α → ι → Outcome (List α)} {key : α → β}
    {P : α → Prop} (hread : ∀ l node l', read l node = .ok l' →
      ∃ a, l' = l ++ [a] ∧ key a ∉ l.map key ∧ P a)
    {nodes : List ι} {l : List α} (h : nodes.foldlM read [] = .ok l) :
    (l.map key).Nodup ∧ ∀ a ∈ l, P a := by
  refine Outcome.foldlM_inv (fun l : List α => (l.map key).Nodup ∧ ∀ a ∈ l, P a) ?_ ?_ h
  · intro l node l' _ hl hnode
    obtain ⟨a, rfl, hkey, ha⟩ := hread l node l' hnode
    refine ⟨nodup_map_append hl.1 hkey, fun b hb => ?_⟩
    cases List.mem_append.mp hb with
    | inl hb => exact hl.2 b hb
    | inr hb =>
      rw [List.mem_singleton.mp hb]
      exact ha
  · exact ⟨List.nodup_nil, fun a ha => absurd ha List.not_mem_nil⟩

/-! ### The input products -/

theorem readSwath_eq_ok {swaths swaths' : List Swath} {node : XmlNode}
    (h : readSwath swaths node = .ok swaths') :
    ∃ swath, swaths' = swaths ++ [swath] ∧ swath.sIndex ∉ swaths.map Swath.sIndex ∧
      swath.swathId ∉ swaths.map Swath.swathId := by
  simp only [readSwath, Outcome.bind_eq_ok, Outcome.require_eq_ok, Outcome.pure_eq,
    Outcome.ok.injEq] at h
  obtain ⟨sIndex, -, swathId, -, -, ⟨hsIndex, hswathId⟩, -, -, burstIndices, -, -, -, rfl⟩ := h
  exact ⟨_, rfl, hsIndex, hswathId⟩

/-- The swaths of one input product have indices and names of their own. -/
theorem swaths_nodup {nodes : List XmlNode} {swaths : List Swath}
    (h : nodes.foldlM readSwath [] = .ok swaths) :
    (swaths.map Swath.sIndex).Nodup ∧ (swaths.map Swath.swathId).Nodup := by
  refine Outcome.foldlM_inv (fun swaths => (swaths.map Swath.sIndex).Nodup ∧
    (swaths.map Swath.swathId).Nodup) ?_ ⟨List.nodup_nil, List.nodup_nil⟩ h
  intro swaths node swaths' _ hswaths hread
  obtain ⟨swath, rfl, hsIndex, hswathId⟩ := readSwath_eq_ok hread
  exact ⟨nodup_map_append hswaths.1 hsIndex, nodup_map_append hswaths.2 hswathId⟩

variable {readers : Readers T}

omit [Field T] in
theorem readAcquisition_eq_ok {acquisitions acquisitions' : List (Acquisition T)} {node : XmlNode}
    (h : readAcquisition readers acquisitions node = .ok acquisitions') :
    ∃ acquisition, acquisitions' = acquisitions ++ [acquisition] ∧
      acquisition.pIndex ∉ acquisitions.map Acquisition.pIndex ∧
      (acquisition.swaths.map Swath.sIndex).Nodup ∧
      (acquisition.swaths.map Swath.swathId).Nodup := by
  simp only [readAcquisition, Outcome.bind_eq_ok, Outcome.require_eq_ok, Outcome.pure_eq,
    Outcome.ok.injEq] at h
  obtain ⟨pIndex, -, -, hpIndex, productId, -, startTime, -, stopTime, -, -, -, swaths, hswaths,
    -, -, rfl⟩ := h
  exact ⟨_, rfl, hpIndex, swaths_nodup hswaths⟩

omit [Field T] in
theorem acquisitions_nodup {nodes : List XmlNode} {acquisitions : List (Acquisition T)}
    (h : nodes.foldlM (readAcquisition readers) [] = .ok acquisitions) :
    (acquisitions.map Acquisition.pIndex).Nodup ∧ ∀ acquisition ∈ acquisitions,
      (acquisition.swaths.map Swath.sIndex).Nodup ∧
        (acquisition.swaths.map Swath.swathId).Nodup := by
  exact nodup_of_appends (fun _ _ _ hread => readAcquisition_eq_ok hread) h

/-! ### The burst table -/

omit [Field T] in
theorem readCoverage_eq_ok {node : XmlNode} {coverage : Coverage T}
    (h : readCoverage readers node = .ok coverage) :
    coverage.azimuthMin < coverage.azimuthMax ∧ coverage.rangeMin < coverage.rangeMax := by
  simp only [readCoverage, Outcome.bind_eq_ok, Outcome.require_eq_ok, Outcome.pure_eq,
    Outcome.ok.injEq] at h
  obtain ⟨_, -, _, -, _, -, _, -, -, hordered, rfl⟩ := h
  exact hordered

theorem gridSize_eq_ok {rows columns size : Int} (h : gridSize rows columns = .ok size) :
    2 ≤ rows ∧ 2 ≤ columns := by
  simp only [gridSize, Outcome.bind_eq_ok, Outcome.require_eq_ok] at h
  obtain ⟨-, ⟨hrows, hcolumns, -⟩, -⟩ := h
  exact ⟨hrows, hcolumns⟩

theorem readBurst_eq_ok {bursts bursts' : List (Burst T)} {node : XmlNode}
    (h : readBurst readers bursts node = .ok bursts') :
    ∃ burst, bursts' = bursts ++ [burst] ∧ burst.bIndex ∉ bursts.map Burst.bIndex ∧
      burst.Valid := by
  unfold readBurst at h
  iterate 4 refine Outcome.of_bind_eq_ok h fun _ _ h => ?_
  refine Outcome.of_bind_eq_ok h fun _ hnew h => ?_
  have hbIndex := Outcome.require_eq_ok.mp hnew
  refine Outcome.of_bind_eq_ok h fun coverage hcoverage h => ?_
  -- the corners and where the grid starts
  iterate 5 refine Outcome.of_bind_eq_ok h fun _ _ h => ?_
  refine Outcome.of_bind_eq_ok h fun _ hpositive h => ?_
  have hsampling := Outcome.require_eq_ok.mp hpositive
  iterate 4 refine Outcome.of_bind_eq_ok h fun _ _ h => ?_
  refine Outcome.of_bind_eq_ok h fun size hsize h => ?_
  cases h
  obtain ⟨hazimuth, hrange⟩ := readCoverage_eq_ok hcoverage
  obtain ⟨hrows, hcolumns⟩ := gridSize_eq_ok hsize
  exact ⟨_, rfl, hbIndex, ⟨hazimuth, hrange, hsampling.1, hsampling.2, hrows, hcolumns⟩⟩

theorem bursts_valid {nodes : List XmlNode} {bursts : List (Burst T)}
    (h : nodes.foldlM (readBurst readers) [] = .ok bursts) :
    (bursts.map Burst.bIndex).Nodup ∧ ∀ burst ∈ bursts, burst.Valid := by
  exact nodup_of_appends (fun _ _ _ hread => readBurst_eq_ok hread) h

/-! ### The references -/

omit [Field T] [LinearOrder T] in
theorem getBurst_eq_ok {metadata : Metadata T} {bIndex : Int} {burst : Burst T}
    (h : getBurst metadata bIndex = .ok burst) :
    burst ∈ metadata.bursts ∧ burst.bIndex = bIndex := by
  unfold getBurst at h
  split at h
  · next found hfind =>
    rw [← Outcome.ok.inj h]
    exact ⟨List.mem_of_find?_eq_some hfind, by simpa using List.find?_some hfind⟩
  · cases h

/-- The references of one swath, checked. -/
def Swath.Agrees (metadata : Metadata T) (acquisition : Acquisition T) (swath : Swath) : Prop :=
  ∀ bIndex ∈ swath.burstIndices, ∃ burst ∈ metadata.bursts, burst.bIndex = bIndex ∧
    burst.pIndex = acquisition.pIndex ∧ burst.sIndex = swath.sIndex ∧
      burst.swathId = swath.swathId

omit [Field T] [LinearOrder T] in
theorem checkSwath_eq_ok {metadata : Metadata T} {acquisition : Acquisition T} {swath : Swath}
    {referenced referenced' : List Int}
    (h : checkSwath metadata acquisition referenced swath = .ok referenced') :
    referenced' = referenced ++ swath.burstIndices ∧ (referenced.Nodup → referenced'.Nodup) ∧
      swath.Agrees metadata acquisition := by
  have hrun := Outcome.foldlM_append (g := fun bIndex => [bIndex])
    (Q := fun bIndex => ∃ burst ∈ metadata.bursts, burst.bIndex = bIndex ∧
      burst.pIndex = acquisition.pIndex ∧ burst.sIndex = swath.sIndex ∧
        burst.swathId = swath.swathId) ?_ h
  · rwa [List.flatMap_singleton'] at hrun
  · intro referenced bIndex referenced' _ hcheck
    simp only [checkReference, Outcome.bind_eq_ok, Outcome.require_eq_ok, Outcome.pure_eq,
      Outcome.ok.injEq] at hcheck
    obtain ⟨burst, hburst, -, ⟨hp, hs, hswath, hnew⟩, rfl⟩ := hcheck
    obtain ⟨hmem, hbIndex⟩ := getBurst_eq_ok hburst
    refine ⟨rfl, fun hnodup => ?_, burst, hmem, hbIndex, hp, hs, hswath⟩
    exact hnodup.append (List.nodup_singleton _) (List.disjoint_singleton.mpr hnew)

omit [Field T] [LinearOrder T] in
theorem checkAcquisition_eq_ok {metadata : Metadata T} {acquisition : Acquisition T}
    {referenced referenced' : List Int}
    (h : checkAcquisition metadata referenced acquisition = .ok referenced') :
    referenced' = referenced ++ acquisition.swaths.flatMap Swath.burstIndices ∧
      (referenced.Nodup → referenced'.Nodup) ∧
        ∀ swath ∈ acquisition.swaths, swath.Agrees metadata acquisition :=
  Outcome.foldlM_append (f := checkSwath metadata acquisition)
    (fun _ _ _ _ => checkSwath_eq_ok) h

omit [Field T] [LinearOrder T] in
/-- All references: what was collected is what is listed. -/
theorem checkAcquisitions_eq_ok {metadata : Metadata T} {referenced : List Int}
    (h : metadata.acquisitions.foldlM (checkAcquisition metadata) [] = .ok referenced) :
    referenced = metadata.listed ∧ referenced.Nodup ∧
      ∀ acquisition ∈ metadata.acquisitions, ∀ swath ∈ acquisition.swaths,
        swath.Agrees metadata acquisition := by
  obtain ⟨happend, hnodup, hagrees⟩ :=
    Outcome.foldlM_append (f := checkAcquisition metadata)
      (fun _ _ _ _ => checkAcquisition_eq_ok) h
  exact ⟨happend, hnodup List.nodup_nil, hagrees⟩

omit [Field T] [LinearOrder T] in
/-- References without repetitions, as many as there are bursts, are all of them. -/
theorem listed_perm_of_length {metadata : Metadata T} (hnodup : metadata.listed.Nodup)
    (hagrees : ∀ acquisition ∈ metadata.acquisitions, ∀ swath ∈ acquisition.swaths,
      swath.Agrees metadata acquisition)
    (hlength : metadata.listed.length = metadata.bursts.length) :
    metadata.listed.Perm (metadata.bursts.map Burst.bIndex) := by
  have hsubset : metadata.listed ⊆ metadata.bursts.map Burst.bIndex := by
    intro bIndex hlisted
    obtain ⟨acquisition, hacquisition, hswaths⟩ := List.mem_flatMap.mp hlisted
    obtain ⟨swath, hswath, hindex⟩ := List.mem_flatMap.mp hswaths
    obtain ⟨burst, hburst, hbIndex, -⟩ :=
      hagrees acquisition hacquisition swath hswath bIndex hindex
    exact hbIndex ▸ List.mem_map_of_mem hburst
  exact (hnodup.subperm hsubset).perm_of_length_le (by rw [List.length_map, hlength])

/-- Metadata that is read is consistent. -/
theorem parseAnnotation_consistent {document : XmlNode} {metadata : Metadata T}
    (h : parseAnnotation readers document = .ok metadata) :
    metadata.Consistent ∧ ∀ burst ∈ metadata.bursts, burst.Valid := by
  unfold parseAnnotation at h
  -- the header, the bounds and the frequency
  iterate 9 refine Outcome.of_bind_eq_ok h fun _ _ h => ?_
  refine Outcome.of_bind_eq_ok h fun acquisitions hacquisitions h => ?_
  iterate 4 refine Outcome.of_bind_eq_ok h fun _ _ h => ?_
  refine Outcome.of_bind_eq_ok h fun bursts hbursts h => ?_
  iterate 4 refine Outcome.of_bind_eq_ok h fun _ _ h => ?_
  refine Outcome.of_bind_eq_ok h fun referenced hreferenced h => ?_
  refine Outcome.of_bind_eq_ok h fun _ hrequire h => ?_
  have hlength := Outcome.require_eq_ok.mp hrequire
  -- the swaths and the calibrations
  iterate 4 refine Outcome.of_bind_eq_ok h fun _ _ h => ?_
  cases h
  obtain ⟨hpIndex, hswaths⟩ := acquisitions_nodup hacquisitions
  obtain ⟨hbIndex, hvalid⟩ := bursts_valid hbursts
  obtain ⟨rfl, hnodup, hagrees⟩ := checkAcquisitions_eq_ok hreferenced
  exact ⟨⟨hbIndex, hpIndex, fun a ha => (hswaths a ha).2, fun a ha => (hswaths a ha).1,
    listed_perm_of_length hnodup hagrees hlength, hagrees⟩, hvalid⟩

/-! ### Lookups in consistent metadata -/

omit [Field T] [LinearOrder T] in
/-- A burst is what its index is looked up as. -/
theorem Metadata.Consistent.getBurst_eq {metadata : Metadata T} (h : metadata.Consistent)
    {burst : Burst T} (hburst : burst ∈ metadata.bursts) :
    getBurst metadata burst.bIndex = .ok burst := by
  have hunique := h.bIndex_nodup
  unfold getBurst
  generalize metadata.bursts = bursts at hburst hunique ⊢
  induction bursts with
  | nil => exact absurd hburst List.not_mem_nil
  | cons first rest ih =>
    rw [List.map_cons, List.nodup_cons] at hunique
    rw [List.find?_cons]
    rcases List.mem_cons.mp hburst with rfl | hrest
    · rw [decide_eq_true rfl]
    -- another burst has another index
    · have hne : first.bIndex ≠ burst.bIndex := fun heq =>
        hunique.1 (heq ▸ List.mem_map_of_mem hrest)
      rw [decide_eq_false hne]
      exact ih hrest hunique.2

/-- What a lookup by product, swath and time returns. -/
structure FindBurstCorrect (metadata : Metadata T) (pIndex : Int) (swathId : String)
    (azimuthTime rangeTime : T) (found : Option (Burst T)) : Prop where
  returned : findBurst metadata pIndex swathId azimuthTime rangeTime = .ok found
  sound : ∀ burst, found = some burst → burst ∈ metadata.bursts ∧ burst.pIndex = pIndex ∧
    burst.swathId = swathId ∧ burst.coverage.Contains azimuthTime rangeTime
  complete : found = none → ∀ burst ∈ metadata.bursts, burst.pIndex = pIndex →
    burst.swathId = swathId → ¬ burst.coverage.Contains azimuthTime rangeTime

omit [Field T] in
/-- The search through listed bursts of the table. -/
theorem firstContaining_spec {metadata : Metadata T} (azimuthTime rangeTime : T)
    {burstIndices : List Int}
    (h : ∀ bIndex ∈ burstIndices, ∃ burst, getBurst metadata bIndex = .ok burst) :
    ∃ found, firstContaining metadata azimuthTime rangeTime burstIndices = .ok found ∧
      (∀ burst, found = some burst → burst.bIndex ∈ burstIndices ∧
        getBurst metadata burst.bIndex = .ok burst ∧
        burst.coverage.Contains azimuthTime rangeTime) ∧
      (found = none → ∀ bIndex ∈ burstIndices, ∀ burst, getBurst metadata bIndex = .ok burst →
        ¬ burst.coverage.Contains azimuthTime rangeTime) := by
  induction burstIndices with
  | nil =>
    exact ⟨none, rfl, fun burst hburst => absurd hburst.symm (Option.some_ne_none burst),
      fun _ bIndex hbIndex => absurd hbIndex List.not_mem_nil⟩
  | cons bIndex burstIndices ih =>
    obtain ⟨burst, hburst⟩ := h bIndex List.mem_cons_self
    have hbIndex := (getBurst_eq_ok hburst).2
    unfold firstContaining
    rw [hburst, Outcome.ok_bind]
    by_cases hcontains : burst.coverage.Contains azimuthTime rangeTime
    · refine ⟨some burst, if_pos hcontains, ?_, fun hnone => absurd hnone (Option.some_ne_none _)⟩
      intro burst' hsome
      obtain rfl := Option.some.inj hsome
      exact ⟨hbIndex ▸ List.mem_cons_self, hbIndex ▸ hburst, hcontains⟩
    -- the search goes on
    · obtain ⟨found, hfound, hsound, hcomplete⟩ :=
        ih fun b hb => h b (List.mem_cons_of_mem bIndex hb)
      refine ⟨found, (if_neg hcontains).trans hfound, ?_, ?_⟩
      · intro burst' hsome
        obtain ⟨hmem, hget, hcontains'⟩ := hsound burst' hsome
        exact ⟨List.mem_cons_of_mem bIndex hmem, hget, hcontains'⟩
      · intro hnone b hb burst' hget
        rcases List.mem_cons.mp hb with rfl | hb
        · rw [hburst] at hget
          exact Outcome.ok.inj hget ▸ hcontains
        · exact hcomplete hnone b hb burst' hget

omit [Field T] [LinearOrder T] in
/-- The burst indices that a lookup searches: those the product lists in the swath. -/
theorem mem_searched {acquisitions : List (Acquisition T)} {pIndex : Int} {swathId : String}
    {bIndex : Int} :
    bIndex ∈ ((acquisitions.filter fun acquisition =>
      acquisition.pIndex = pIndex).flatMap fun acquisition =>
        acquisition.swaths.filter fun swath => swath.swathId = swathId).flatMap
          Swath.burstIndices ↔
      ∃ acquisition ∈ acquisitions, acquisition.pIndex = pIndex ∧
        ∃ swath ∈ acquisition.swaths, swath.swathId = swathId ∧ bIndex ∈ swath.burstIndices := by
  simp only [List.mem_flatMap, List.mem_filter, decide_eq_true_eq]
  constructor
  · rintro ⟨swath, ⟨acquisition, ⟨hacquisition, hp⟩, hswath, hid⟩, hmem⟩
    exact ⟨acquisition, hacquisition, hp, swath, hswath, hid, hmem⟩
  · rintro ⟨acquisition, hacquisition, hp, swath, hswath, hid, hmem⟩
    exact ⟨swath, ⟨acquisition, ⟨hacquisition, hp⟩, hswath, hid⟩, hmem⟩

omit [Field T] [LinearOrder T] in
/-- A listed index is that of a burst of the product and swath that list it. -/
theorem Metadata.Consistent.getBurst_listed {metadata : Metadata T} (h : metadata.Consistent)
    {acquisition : Acquisition T} (hacquisition : acquisition ∈ metadata.acquisitions)
    {swath : Swath} (hswath : swath ∈ acquisition.swaths) {bIndex : Int}
    (hmem : bIndex ∈ swath.burstIndices) :
    ∃ burst, getBurst metadata bIndex = .ok burst ∧ burst ∈ metadata.bursts ∧
      burst.pIndex = acquisition.pIndex ∧ burst.swathId = swath.swathId := by
  obtain ⟨burst, hburst, rfl, hp, -, hid⟩ :=
    h.listed_agrees acquisition hacquisition swath hswath bIndex hmem
  exact ⟨burst, h.getBurst_eq hburst, hburst, hp, hid⟩

omit [Field T] [LinearOrder T] in
/-- Every burst is listed, by the product and swath that it names. -/
theorem Metadata.Consistent.exists_listing {metadata : Metadata T} (h : metadata.Consistent)
    {burst : Burst T} (hburst : burst ∈ metadata.bursts) :
    ∃ acquisition ∈ metadata.acquisitions, acquisition.pIndex = burst.pIndex ∧
      ∃ swath ∈ acquisition.swaths, swath.swathId = burst.swathId ∧
        burst.bIndex ∈ swath.burstIndices := by
  have hin : burst.bIndex ∈ metadata.listed :=
    h.listed_perm.mem_iff.mpr (List.mem_map_of_mem hburst)
  obtain ⟨acquisition, hacquisition, hswaths⟩ := List.mem_flatMap.mp hin
  obtain ⟨swath, hswath, hindex⟩ := List.mem_flatMap.mp hswaths
  obtain ⟨burst', hget, -, hp, hid⟩ := h.getBurst_listed hacquisition hswath hindex
  rw [h.getBurst_eq hburst] at hget
  obtain rfl := Outcome.ok.inj hget
  exact ⟨acquisition, hacquisition, hp.symm, swath, hswath, hid.symm, hindex⟩

omit [Field T] in
/-- In consistent metadata a burst is found exactly where there is one. -/
theorem Metadata.Consistent.findBurst_correct {metadata : Metadata T} (h : metadata.Consistent)
    (pIndex : Int) (swathId : String) (azimuthTime rangeTime : T) :
    ∃ found, FindBurstCorrect metadata pIndex swathId azimuthTime rangeTime found := by
  obtain ⟨found, hfound, hsound, hcomplete⟩ :=
    firstContaining_spec azimuthTime rangeTime (fun bIndex hmem => by
      obtain ⟨acquisition, hacquisition, -, swath, hswath, -, hin⟩ := mem_searched.mp hmem
      obtain ⟨burst, hburst, -⟩ := h.getBurst_listed hacquisition hswath hin
      exact ⟨burst, hburst⟩)
  refine ⟨found, hfound, ?sound, ?complete⟩
  case sound =>
    intro burst hsome
    obtain ⟨hmem, hget, hcontains⟩ := hsound burst hsome
    obtain ⟨acquisition, hacquisition, hp, swath, hswath, hid, hin⟩ := mem_searched.mp hmem
    obtain ⟨burst', hget', hburst', hp', hid'⟩ := h.getBurst_listed hacquisition hswath hin
    rw [hget] at hget'
    obtain rfl := Outcome.ok.inj hget'
    exact ⟨hburst', hp'.trans hp, hid'.trans hid, hcontains⟩
  case complete =>
    intro hnone burst hburst hp hid
    subst hp hid
    have hlisted := mem_searched.mpr (h.exists_listing hburst)
    exact hcomplete hnone burst.bIndex hlisted burst (h.getBurst_eq hburst)

/-- An annotation that is read has consistent tables, and every lookup in it is correct. -/
theorem parseAnnotation_correct {document : XmlNode} {metadata : Metadata T}
    (h : parseAnnotation readers document = .ok metadata) :
    metadata.Consistent ∧ ∀ pIndex swathId azimuthTime rangeTime,
      ∃ found, FindBurstCorrect metadata pIndex swathId azimuthTime rangeTime found := by
  have hconsistent := (parseAnnotation_consistent h).1
  exact ⟨hconsistent, hconsistent.findBurst_correct⟩

end Consistent

/-! ## An annotation -/

section Sample

/-- The bounds of the product and of its burst. -/
def sampleCoverage : XmlContent :=
  .element "temporalCoverage" []
    [leaf "azimuthTimeMin" "2000-01-01T00:00:10", leaf "azimuthTimeMax" "2000-01-01T00:00:20Z",
      leaf "rangeTimeMin" "10", leaf "rangeTimeMax" "20"]

def sampleBurst (azimuthExtent rangeExtent : String) : XmlContent :=
  .element "etadBurst" []
    [.element "burstData" [("bIndex", "7"), ("pIndex", "1"), ("sIndex", "1")]
        [leaf "swathID" "IW1"],
      .element "burstCoverage" []
        [sampleCoverage,
          .element "spatialCoverage" [] (corners.map fun corner =>
            .element "coordinates" [("corner", corner)]
              [leaf "latitude" "58", leaf "longitude" "25"])],
      .element "gridInformation" []
        [leaf "gridStartAzimuthTime" "0", leaf "gridStartRangeTime" "0",
          .element "gridSampling" [] [leaf "azimuth" "1", leaf "range" "1"],
          .element "gridDimensions" []
            [leaf "azimuthExtent" azimuthExtent, leaf "rangeExtent" rangeExtent]]]

/-- One product with one burst, whose grid has these dimensions. -/
def sampleDocument (azimuthExtent rangeExtent : String) : XmlNode :=
  some (.element "" [] [.element "etadProduct" []
    [.element "etadHeader" []
        [leaf "missionId" "S1A", leaf "mode" "IW", leaf "productType" "SLC"],
      .element "productCoverage" [] [sampleCoverage],
      .element "productInformation" [] [leaf "carrierFrequency" "5405000454"],
      .element "productComponents" []
        [.element "inputProductList" [("count", "1")]
            [.element "inputProduct" [("pIndex", "1")]
              [leaf "productID" "S1A_IW_SLC__1SDV_20000101T000010_20000101T000020_000042_1",
                leaf "startTime" "2000-01-01T00:00:10", leaf "stopTime" "2000-01-01T00:00:20",
                .element "swathList" [("count", "1")]
                  [.element "swath" [("sIndex", "1")]
                    [leaf "swathID" "IW1",
                      .element "bIndexList" [("count", "1")] [leaf "bIndex" " 7 "]]]]],
          leaf "numberOfInputProducts" "1", leaf "numberOfBursts" "1",
          leaf "numberOfSwaths" "1"],
      .element "etadBurstList" [("count", "1")] [sampleBurst azimuthExtent rangeExtent],
      .element "processingInformation" [] [.element "auxInputData" [] [.element "auxSetap" []
        [.element "instrumentTimingCalibrationList" [("count", "1")]
          [.element "instrumentTimingCalibration" []
            [leaf "swath" "IW1", leaf "polarisation" "VV", leaf "rangeCalibration" "0",
              leaf "azimuthCalibration" "0"]]]]]]])

def sampleMetadata (rows columns : Int) : Metadata ℚ where
  mission := "S1A"
  mode := "IW"
  coverage := ⟨10, 20, 10, 20⟩
  carrierFrequencyHz := 5405000454
  acquisitions := [⟨"S1A_IW_SLC__1SDV_20000101T000010_20000101T000020_000042_1", 1, 10, 20,
    [⟨"IW1", 1, [7]⟩]⟩]
  bursts := [⟨7, 1, 1, "IW1", ⟨10, 20, 10, 20⟩, 0, 0, 1, 1, rows, columns,
    [(58, 25), (58, 25), (58, 25), (58, 25)]⟩]
  calibrations := [⟨"IW1", "VV", 0, 0, 0, 0⟩]

theorem parseAnnotation_sample :
    parseAnnotation sampleReaders (sampleDocument "11" "11") = .ok (sampleMetadata 11 11) := by
  decide +kernel

/-- The lookups in this annotation. -/
theorem parseAnnotation_correct_sample : (sampleMetadata 11 11).Consistent ∧
    ∀ pIndex swathId azimuthTime rangeTime, ∃ found,
      FindBurstCorrect (sampleMetadata 11 11) pIndex swathId azimuthTime rangeTime found :=
  parseAnnotation_correct parseAnnotation_sample

end Sample

end Alus.Etad
