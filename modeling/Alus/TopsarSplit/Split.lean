import Mathlib.Data.List.Infix
import Mathlib.Data.List.Nodup
import Mathlib.Tactic.Ring
import Mathlib.Tactic.SplitIfs
import Alus.Lib.IntRange
import Alus.Lib.Machine

/-!
# TOPSAR split

`TopsarSplit::Initialize` (`topsar-split/src/topsar_split.cc`) selects a range of bursts of one
sub-swath, by index or by an area of interest, and edits everything that describes them: the
pixel region, the abstracted metadata, and the burst lists of the original metadata, from which
it removes elements one by one.

Times are any type; the conversion to UTC, the WKT reader and the coverage test of two polygons
are parameters. Nodes of the metadata are compared by identity, as shared pointers are.
-/

namespace Alus.TopsarSplit

open Alus.Lib

/-- `BURST_INDEX_OFFSET`. -/
def burstIndexOffset : Int := 1

/-- `text.find(sub) != npos`. -/
def find (text sub : String) : Bool := decide (sub.toList <:+: text.toList)

/-- `static_cast<int>` of a `size_t`. -/
def burstIndex (n : Nat) : Int := Int.bmod n 4294967296

/-! ## The source product -/

structure Coordinates (R : Type) where
  lon : R
  lat : R

/-- `SubSwathInfo`, with the sizes that `GetSubSwathInfo` establishes. -/
structure SubSwathInfo (R : Type) where
  subswathName : String
  numOfBursts : Int
  linesPerBurst : Int
  burstFirstLineTime : List R
  burstLastLineTime : List R
  numOfGeoPointsPerLine : Int
  coordinates : List (List (Coordinates R))
  bursts_nonneg : 0 ≤ numOfBursts
  lines_pos : 0 < linesPerBurst
  raster_fits : numOfBursts * linesPerBurst < 2147483648
  firstTimes : (burstFirstLineTime.length : Int) = numOfBursts
  lastTimes : (burstLastLineTime.length : Int) = numOfBursts
  points_pos : 0 < numOfGeoPointsPerLine
  geoLines : numOfBursts < coordinates.length
  geoPoints : ∀ line ∈ coordinates, (line.length : Int) = numOfGeoPointsPerLine

structure Band where
  name : String
  rasterWidth : Int
  rasterHeight : Int

/-- An element of the annotation metadata: the burst list and its count, and the image
information. -/
structure AnnotationElem (ε : Type) where
  name : String
  count : String
  burstList : List ε
  numberOfLines : String
  productFirstLineUtcTime : String
  productLastLineUtcTime : String

/-- The product and the members of the operator before `Initialize`. -/
structure Source (R ε : Type) where
  isValid : Bool
  subSwathNames : List String
  subSwaths : List (SubSwathInfo R)
  polarizations : List String
  bands : List Band
  annotations : Option (List (AnnotationElem ε))
  subswath : String
  selectedPolarisations : List String
  burstAoiWkt : String
  firstBurst : Nat
  lastBurst : Nat

namespace Source

variable {R ε : Type} (s : Source R ε)

/-- The sub-swath: the one asked for, or the first. -/
def subswathName : Outcome String :=
  if s.subswath.isEmpty then
    match s.subSwathNames with
    | [] => .throws
    | front :: _ => .ok front
  else
    .ok s.subswath

/-- `selected_subswath_info_`. -/
def selectedSubswathInfo (subswath : String) : Outcome (SubSwathInfo R) :=
  match s.subSwaths.find? fun info => find info.subswathName subswath with
  | some info => .ok info
  | none => .throws

/-- The bands that name the sub-swath, once for each polarisation they name. -/
def bandsNaming (subswath : String) (polarisations : List String) : List Band :=
  (s.bands.filter fun band => find band.name subswath).flatMap fun band =>
    (polarisations.filter fun pol => find band.name pol).map fun _ => band

/-- The polarisations and the bands; without any band, those of all polarisations. -/
def selectBands (subswath : String) : List String × List Band :=
  let polarisations :=
    if s.selectedPolarisations.isEmpty then s.polarizations else s.selectedPolarisations
  let selected := s.bandsNaming subswath polarisations
  -- no band of the selected polarisations: all of them
  if selected.isEmpty then (s.polarizations, s.bandsNaming subswath s.polarizations)
  else (polarisations, selected)

theorem subswathName_ne_undefined : s.subswathName ≠ .undefined := by
  unfold subswathName
  split
  · split <;> simp
  · simp

theorem selectedSubswathInfo_ne_undefined (subswath : String) :
    s.selectedSubswathInfo subswath ≠ .undefined := by
  unfold selectedSubswathInfo
  split <;> simp

variable {s} in
theorem bandsNaming_mem {subswath : String} {polarisations : List String} {band : Band}
    (h : band ∈ s.bandsNaming subswath polarisations) :
    band ∈ s.bands ∧ find band.name subswath := by
  obtain ⟨b, hb, h⟩ := List.mem_flatMap.mp h
  obtain ⟨_, _, rfl⟩ := List.mem_map.mp h
  exact List.mem_filter.mp hb

variable {s} in
theorem selectBands_mem {subswath : String} {band : Band} (h : band ∈ (s.selectBands subswath).2) :
    band ∈ s.bands ∧ find band.name subswath := by
  simp only [selectBands] at h
  split_ifs at h <;> exact bandsNaming_mem h

end Source

/-- A source whose bands and annotation agree with the record of the selected sub-swath: a
product of `numOfBursts` bursts. -/
structure SplitOperator (R ε : Type) extends Source R ε where
  bands_height : ∀ subswath info, toSource.subswathName = .ok subswath →
    toSource.selectedSubswathInfo subswath = .ok info → ∀ band ∈ bands,
      find band.name subswath → band.rasterHeight = info.numOfBursts * info.linesPerBurst
  annotation_bursts : ∀ subswath info, toSource.subswathName = .ok subswath →
    toSource.selectedSubswathInfo subswath = .ok info → ∀ elems ∈ annotations, ∀ elem ∈ elems,
      find elem.name.toUpper subswath →
        (elem.burstList.length : Int) = info.numOfBursts ∧ elem.burstList.Nodup

/-! ## The burst range -/

section BurstRange

variable {R A : Type}

/-- `GetBurstBoxFrom`: the corners of a burst, from its upper and lower edge. -/
def getBurstBoxFrom (upperBurstEdge bottomBurstEdge : List (Coordinates R)) :
    Outcome (List (Coordinates R)) := do
  let lastCoordinateIndex : Int := upperBurstEdge.length - 1
  let polygonClosingPoint ← vectorAt upperBurstEdge 0
  let upperLast ← vectorAt upperBurstEdge lastCoordinateIndex
  let bottomLast ← vectorAt bottomBurstEdge lastCoordinateIndex
  let bottomFirst ← vectorAt bottomBurstEdge 0
  return [polygonClosingPoint, upperLast, bottomLast, bottomFirst, polygonClosingPoint]

/-- One round of `DetermineBurstIndexesCoveredBy`. -/
def coveredStep (isCovered : List (Coordinates R) → A → Bool) (aoi : A)
    (burstEdgeLinePoints : List (List (Coordinates R))) (selectedBursts : List Int) (i : Int) :
    Outcome (List Int) := do
  let upperLine ← vectorAt burstEdgeLinePoints (i - burstIndexOffset)
  let bottomLine ← vectorAt burstEdgeLinePoints i
  let box ← getBurstBoxFrom upperLine bottomLine
  return if isCovered box aoi then selectedBursts ++ [i] else selectedBursts

/-- `DetermineBurstIndexesCoveredBy`. -/
def determineBurstIndexesCoveredBy (isCovered : List (Coordinates R) → A → Bool) (aoi : A)
    (burstEdgeLinePoints : List (List (Coordinates R))) : Outcome (List Int) :=
  (intRange burstIndexOffset burstEdgeLinePoints.length).foldlM
    (coveredStep isCovered aoi burstEdgeLinePoints) []

/-- `first_burst_index_` and `last_burst_index_` from an area of interest. -/
def aoiBursts (readWkt : String → Option A) (isCovered : List (Coordinates R) → A → Bool)
    (burstAoiWkt : String) (info : SubSwathInfo R) : Outcome (Int × Int) := do
  match readWkt burstAoiWkt with
  | none => .throws
  | some aoi => do
    let bursts ← determineBurstIndexesCoveredBy isCovered aoi info.coordinates
    match bursts with
    | [] => .throws
    | front :: rest => do
      let back := (front :: rest).getLast (List.cons_ne_nil front rest)
      Outcome.require (¬ (front > back ∨ back > info.numOfBursts))
      return (front, back)

/-- `last_burst_index_`, at most the burst count. -/
def clampedLastBurst {ε : Type} (s : Source R ε) (info : SubSwathInfo R) : Int :=
  if burstIndex s.lastBurst > info.numOfBursts then info.numOfBursts else burstIndex s.lastBurst

/-- The indices asked for, or those of the area of interest. -/
def requestedBursts {ε : Type} (readWkt : String → Option A)
    (isCovered : List (Coordinates R) → A → Bool) (s : Source R ε) (info : SubSwathInfo R) :
    Outcome (Int × Int) :=
  if s.burstAoiWkt.isEmpty then .ok (burstIndex s.firstBurst, clampedLastBurst s info)
  else aoiBursts readWkt isCovered s.burstAoiWkt info

/-- The burst range of the operator. -/
def burstRange {ε : Type} (readWkt : String → Option A)
    (isCovered : List (Coordinates R) → A → Bool) (s : Source R ε) (info : SubSwathInfo R) :
    Outcome (Int × Int) := do
  let range ← requestedBursts readWkt isCovered s info
  Outcome.require (¬ range.1 < burstIndexOffset)
  return range

end BurstRange

/-! ## The edits -/

structure Rectangle where
  x : Int
  y : Int
  width : Int
  height : Int
  deriving DecidableEq, Repr

/-- `PixelSubsetRegion`. -/
def pixelSubsetRegion (x y width height : Int) : Outcome Rectangle := do
  Outcome.require (¬ (x < 0 ∨ y < 0 ∨ width < 1 ∨ height < 1))
  return ⟨x, y, width, height⟩

theorem pixelSubsetRegion_eq (x y width height : Int) :
    pixelSubsetRegion x y width height = .throws ∨
      pixelSubsetRegion x y width height = .ok ⟨x, y, width, height⟩ := by
  unfold pixelSubsetRegion Outcome.require
  split
  · exact .inr rfl
  · exact .inl rfl

section Edits

variable {R U ε : Type}

/-- `last - first + 1` lines of bursts, as `int`. -/
def burstLines (info : SubSwathInfo R) (first last : Int) : Outcome Int := do
  let difference ← int32 (last - first)
  let bursts ← int32 (difference + burstIndexOffset)
  int32 (bursts * info.linesPerBurst)

/-- The region of the subset. -/
def subsetRegion (info : SubSwathInfo R) (selectedBands : List Band) (first last : Int) :
    Outcome Rectangle := do
  let y ← int32 ((first - burstIndexOffset) * info.linesPerBurst)
  let band ← vectorAt selectedBands 0
  let h ← burstLines info first last
  pixelSubsetRegion 0 y band.rasterWidth h

/-- The abstracted metadata that `UpdateAbstractedMetadata` takes from the bursts. -/
structure AbstractedMetadata (R U : Type) where
  firstLineTime : U
  lastLineTime : U
  numOutputLines : Int
  firstNear : Coordinates R
  firstFar : Coordinates R
  lastNear : Coordinates R
  lastFar : Coordinates R

/-- `UpdateAbstractedMetadata`. -/
def updateAbstractedMetadata (utc : R → U) (info : SubSwathInfo R) (first last : Int) :
    Outcome (AbstractedMetadata R U) := do
  let firstLineTime ← vectorIndex info.burstFirstLineTime (first - burstIndexOffset)
  let lastLineTime ← vectorIndex info.burstLastLineTime (last - burstIndexOffset)
  let numOutputLines ← burstLines info first last
  let firstEdge ← vectorIndex info.coordinates (first - burstIndexOffset)
  let firstNear ← vectorIndex firstEdge 0
  let firstFar ← vectorIndex firstEdge (info.numOfGeoPointsPerLine - 1)
  let lastEdge ← vectorIndex info.coordinates last
  let lastNear ← vectorIndex lastEdge 0
  let lastFar ← vectorIndex lastEdge (info.numOfGeoPointsPerLine - 1)
  return {
    firstLineTime := utc firstLineTime
    lastLineTime := utc lastLineTime
    numOutputLines
    firstNear
    firstFar
    lastNear
    lastFar }

/-- `RemoveElements` on the annotation: the elements of the sub-swath and its polarisations
stay. -/
def removeElements (subswath : String) (polarisations : List String)
    (elems : List (AnnotationElem ε)) : List (AnnotationElem ε) :=
  elems.filter fun elem =>
    find elem.name.toUpper subswath && polarisations.any fun pol => find elem.name.toUpper pol

/-- One round of the loop of `RemoveBursts`, for the node at index `i` of the list before it. -/
def removeBurstStep [DecidableEq ε] (first last : Int) (burstListElem left : List ε) (i : Int) :
    List ε :=
  -- the node list was taken before, so that its indices stay those of the source
  if i < first - burstIndexOffset ∨ i > last - burstIndexOffset then
    match burstListElem[i.toNat]? with
    | some node => left.erase node
    | none => left
  else left

/-- The loop of `RemoveBursts`. -/
def removeBurstNodes [DecidableEq ε] (first last : Int) (burstListElem : List ε) : List ε :=
  (intRange 0 burstListElem.length).foldl (removeBurstStep first last burstListElem) burstListElem

/-- `RemoveBursts` on one element of the annotation. -/
def removeBursts [DecidableEq ε] (first last : Int) (elem : AnnotationElem ε) :
    Outcome (AnnotationElem ε) := do
  -- the count is that of the range, whatever is left of the list
  let difference ← int32 (last - first)
  let bursts ← int32 (difference + burstIndexOffset)
  return { elem with
    count := toString bursts
    burstList := removeBurstNodes first last elem.burstList }

/-- `UpdateImageInformation` on one element of the annotation. -/
def updateImageInformation (utc : R → U) (format : U → String) (info : SubSwathInfo R)
    (first last : Int) (elem : AnnotationElem ε) : Outcome (AnnotationElem ε) := do
  let lines ← burstLines info first last
  let firstLineTime ← vectorIndex info.burstFirstLineTime (first - burstIndexOffset)
  let lastLineTime ← vectorIndex info.burstLastLineTime (last - burstIndexOffset)
  return { elem with
    numberOfLines := toString lines
    productFirstLineUtcTime := format (utc firstLineTime)
    productLastLineUtcTime := format (utc lastLineTime) }

/-- `UpdateOriginalMetadata`. -/
def updateOriginalMetadata [DecidableEq ε] (utc : R → U) (format : U → String)
    (info : SubSwathInfo R) (subswath : String) (polarisations : List String) (first last : Int)
    (annotations : Option (List (AnnotationElem ε))) : Outcome (List (AnnotationElem ε)) := do
  match annotations with
  | none => .throws
  | some elems => do
    let kept := removeElements subswath polarisations elems
    let cut ← Outcome.collect (kept.map (removeBursts first last))
    Outcome.collect (cut.map (updateImageInformation utc format info first last))

end Edits

/-- The operator after `Initialize`. -/
structure Target (R U ε : Type) where
  firstBurstIndex : Int
  lastBurstIndex : Int
  splitReadingArea : Rectangle
  abstractedMetadata : AbstractedMetadata R U
  annotations : List (AnnotationElem ε)

section Initialize

variable {R U ε A : Type} [DecidableEq ε] (utc : R → U) (format : U → String)

/-- The rest of `Initialize`, once the burst range is known. -/
def applyRange (s : Source R ε) (subswath : String) (info : SubSwathInfo R) (first last : Int) :
    Outcome (Target R U ε) := do
  let selected := s.selectBands subswath
  let region ← subsetRegion info selected.2 first last
  let abstractedMetadata ← updateAbstractedMetadata utc info first last
  let annotations ←
    updateOriginalMetadata utc format info subswath selected.1 first last s.annotations
  return {
    firstBurstIndex := first
    lastBurstIndex := last
    splitReadingArea := region
    abstractedMetadata
    annotations }

/-- `Initialize`. -/
def splitInitialize (readWkt : String → Option A) (isCovered : List (Coordinates R) → A → Bool)
    (s : Source R ε) : Outcome (Target R U ε) := do
  Outcome.require s.isValid
  let subswath ← s.subswathName
  let info ← s.selectedSubswathInfo subswath
  let range ← burstRange readWkt isCovered s info
  applyRange utc format s subswath info range.1 range.2

end Initialize

/-! ## One burst range in every edit -/

section Bursts

variable {ε : Type} [DecidableEq ε]

/-- The loop over these indices removes the node. -/
def Removed (first last : Int) (nodes : List ε) (indices : List Int) (node : ε) : Prop :=
  ∃ i ∈ indices, (i < first - 1 ∨ i > last - 1) ∧ nodes[i.toNat]? = some node

instance (first last : Int) (nodes : List ε) (indices : List Int) (node : ε) :
    Decidable (Removed first last nodes indices node) :=
  inferInstanceAs (Decidable (∃ i ∈ indices, _))

omit [DecidableEq ε] in
theorem removed_singleton {first last : Int} {nodes : List ε} {i : Int} {node : ε} :
    Removed first last nodes [i] node ↔
      (i < first - 1 ∨ i > last - 1) ∧ nodes[i.toNat]? = some node := by
  unfold Removed
  simp only [List.mem_singleton, exists_eq_left]

/-- One round of the loop takes one node out, or none. -/
theorem removeBurstStep_eq (first last : Int) (nodes : List ε) (i : Int) {left : List ε}
    (hleft : left.Nodup) :
    removeBurstStep first last nodes left i =
      left.filter fun node => ¬ Removed first last nodes [i] node := by
  unfold removeBurstStep burstIndexOffset
  split
  · next hcond =>
    split
    · next node hnode =>
      rw [hleft.erase_eq_filter]
      refine List.filter_congr fun other _ => ?_
      rw [Bool.eq_iff_iff, bne_iff_ne, decide_eq_true_iff, removed_singleton, hnode,
        Option.some.injEq, and_iff_right hcond]
      exact ⟨Ne.symm, Ne.symm⟩
    · next hnone =>
      refine (List.filter_eq_self.mpr fun node _ => decide_eq_true_iff.mpr ?_).symm
      rw [removed_singleton, hnone]
      exact fun hremoved => nomatch hremoved.2
  · next hcond =>
    refine (List.filter_eq_self.mpr fun node _ => decide_eq_true_iff.mpr ?_).symm
    exact fun hremoved => hcond (removed_singleton.mp hremoved).1

/-- The indices are those of the list before the loop: earlier removals do not shift them. -/
theorem foldl_removeBurstStep (first last : Int) (nodes : List ε) (indices : List Int)
    {left : List ε} (hleft : left.Nodup) :
    indices.foldl (removeBurstStep first last nodes) left =
      left.filter fun node => ¬ Removed first last nodes indices node := by
  induction indices generalizing left with
  | nil => simp [Removed]
  | cons i indices ih =>
    rw [List.foldl_cons, removeBurstStep_eq first last nodes i hleft, ih (hleft.filter _),
      List.filter_filter]
    refine List.filter_congr fun node _ => ?_
    rw [← Bool.decide_and]
    refine decide_eq_decide.mpr ?_
    simp only [Removed, List.mem_cons, List.not_mem_nil, or_false, exists_eq_or_imp,
      exists_eq_left, not_or, and_comm]

omit [DecidableEq ε] in
/-- The node at an index is removed exactly when the index lies outside the range. -/
theorem removed_getElem_iff {nodes : List ε} (hnodup : nodes.Nodup) {first last : Int}
    (h1 : 1 ≤ first) (hle : first ≤ last) {j : Nat} (hj : j < nodes.length) :
    Removed first last nodes (intRange 0 nodes.length) nodes[j] ↔
      j < (first - 1).toNat ∨ (first - 1).toNat + (last - first + 1).toNat ≤ j := by
  constructor
  · rintro ⟨i, hi, hout, hnode⟩
    have hi' := mem_intRange.mp hi
    have hlt : i.toNat < nodes.length := by omega
    rw [List.getElem?_eq_getElem hlt, Option.some.injEq] at hnode
    -- no node stands at two indices
    have hij := (hnodup.getElem_inj_iff).mp hnode
    omega
  · intro hout
    refine ⟨j, mem_intRange.mpr (by omega), by omega, ?_⟩
    rw [Int.toNat_natCast, List.getElem?_eq_getElem hj]

/-- What is left are the nodes of the selected bursts, in their order. -/
theorem removeBurstNodes_eq {nodes : List ε} (hnodup : nodes.Nodup) {first last : Int}
    (h1 : 1 ≤ first) (hle : first ≤ last) :
    removeBurstNodes first last nodes =
      (nodes.drop (first - 1).toNat).take (last - first + 1).toNat := by
  have hremoved := fun j => removed_getElem_iff (j := j) hnodup h1 hle
  rw [removeBurstNodes, foldl_removeBurstStep first last nodes _ hnodup]
  set a := (first - 1).toNat with ha
  set m := (last - first + 1).toNat with hm
  -- the nodes before the first burst, those from the first to the last, and the rest
  have hsplit : nodes = nodes.take a ++ ((nodes.drop a).take m ++ (nodes.drop a).drop m) := by
    rw [List.take_append_drop, List.take_append_drop]
  conv_lhs => arg 2; rw [hsplit]
  rw [List.filter_append, List.filter_append]
  have hbefore : (nodes.take a).filter (fun node =>
      ¬ Removed first last nodes (intRange 0 nodes.length) node) = [] := by
    refine List.filter_eq_nil_iff.mpr fun node hnode => ?_
    obtain ⟨j, hj, rfl⟩ := List.mem_take_iff_getElem.mp hnode
    rw [decide_eq_true_iff, not_not]
    exact (hremoved j (by omega)).mpr (.inl (by omega))
  have hafter : ((nodes.drop a).drop m).filter (fun node =>
      ¬ Removed first last nodes (intRange 0 nodes.length) node) = [] := by
    refine List.filter_eq_nil_iff.mpr fun node hnode => ?_
    rw [List.drop_drop] at hnode
    obtain ⟨j, hj, rfl⟩ := List.mem_drop_iff_getElem.mp hnode
    rw [decide_eq_true_iff, not_not]
    exact (hremoved _ (by omega)).mpr (.inr (by omega))
  have hmiddle : ((nodes.drop a).take m).filter (fun node =>
      ¬ Removed first last nodes (intRange 0 nodes.length) node) = (nodes.drop a).take m := by
    refine List.filter_eq_self.mpr fun node hnode => ?_
    obtain ⟨j, hj, rfl⟩ := List.mem_take_iff_getElem.mp hnode
    rw [List.length_drop] at hj
    rw [List.getElem_drop]
    apply decide_eq_true
    rw [hremoved (a + j) (by omega)]
    omega
  rw [hbefore, hmiddle, hafter, List.nil_append, List.append_nil]

/-- The element of the annotation describes the selected bursts of the source element. -/
structure CutTo {R U : Type} (utc : R → U) (format : U → String) (info : SubSwathInfo R)
    (first last : Int) (source target : AnnotationElem ε) : Prop where
  name : target.name = source.name
  burstList : target.burstList =
    (source.burstList.drop (first - 1).toNat).take (last - first + 1).toNat
  count : target.count = toString (target.burstList.length : Int)
  numberOfLines : target.numberOfLines = toString ((last - first + 1) * info.linesPerBurst)
  firstTime : ∃ time, info.burstFirstLineTime[(first - 1).toNat]? = some time ∧
    target.productFirstLineUtcTime = format (utc time)
  lastTime : ∃ time, info.burstLastLineTime[(last - 1).toNat]? = some time ∧
    target.productLastLineUtcTime = format (utc time)

end Bursts

/-- The edits describe one range of bursts of the selected sub-swath. -/
structure Consistent {R U ε : Type} (utc : R → U) (format : U → String) (s : Source R ε)
    (subswath : String) (info : SubSwathInfo R) (t : Target R U ε) : Prop where
  range : 1 ≤ t.firstBurstIndex ∧ t.firstBurstIndex ≤ t.lastBurstIndex ∧
    t.lastBurstIndex ≤ info.numOfBursts
  rows : t.splitReadingArea.y = (t.firstBurstIndex - 1) * info.linesPerBurst ∧
    t.splitReadingArea.y + t.splitReadingArea.height = t.lastBurstIndex * info.linesPerBurst
  inside : 0 ≤ t.splitReadingArea.y ∧ ∀ band ∈ (s.selectBands subswath).2,
    t.splitReadingArea.y + t.splitReadingArea.height ≤ band.rasterHeight
  lines : t.abstractedMetadata.numOutputLines =
    info.linesPerBurst * (t.lastBurstIndex - t.firstBurstIndex + 1)
  firstTime : ∃ time, info.burstFirstLineTime[(t.firstBurstIndex - 1).toNat]? = some time ∧
    t.abstractedMetadata.firstLineTime = utc time
  lastTime : ∃ time, info.burstLastLineTime[(t.lastBurstIndex - 1).toNat]? = some time ∧
    t.abstractedMetadata.lastLineTime = utc time
  bursts : ∃ elems, s.annotations = some elems ∧ List.Forall₂
    (CutTo utc format info t.firstBurstIndex t.lastBurstIndex)
    (removeElements subswath (s.selectBands subswath).1 elems) t.annotations

/-! ## Inside the burst count -/

section InRange

variable {R U ε : Type} [DecidableEq ε] {info : SubSwathInfo R} {first last : Int}

/-- Products of lines that lie in the raster fit. -/
theorem products_fit (h1 : 1 ≤ first) (hle : first ≤ last) (hlast : last ≤ info.numOfBursts) :
    Fits 32 ((first - 1) * info.linesPerBurst) ∧ Fits 32 (last - first) ∧
      Fits 32 (last - first + 1) ∧ Fits 32 ((last - first + 1) * info.linesPerBurst) := by
  have hL := info.lines_pos
  have hraster := info.raster_fits
  have hB : info.numOfBursts * 1 ≤ info.numOfBursts * info.linesPerBurst :=
    Int.mul_le_mul_of_nonneg_left (by omega) info.bursts_nonneg
  have hy : (first - 1) * info.linesPerBurst ≤ info.numOfBursts * info.linesPerBurst :=
    Int.mul_le_mul_of_nonneg_right (by omega) hL.le
  have hh : (last - first + 1) * info.linesPerBurst ≤ info.numOfBursts * info.linesPerBurst :=
    Int.mul_le_mul_of_nonneg_right (by omega) hL.le
  have hy0 : 0 ≤ (first - 1) * info.linesPerBurst := Int.mul_nonneg (by omega) hL.le
  have hh0 : 0 ≤ (last - first + 1) * info.linesPerBurst := Int.mul_nonneg (by omega) hL.le
  simp only [fits32_iff]
  omega

theorem burstLines_eq (hdiff : Fits 32 (last - first)) (hsucc : Fits 32 (last - first + 1)) :
    burstLines info first last = int32 ((last - first + 1) * info.linesPerBurst) := by
  rw [burstLines, int32_of_fits hdiff, Outcome.ok_bind, burstIndexOffset, int32_of_fits hsucc,
    Outcome.ok_bind]

theorem subsetRegion_eq {bands : List Band} (h1 : 1 ≤ first) (hle : first ≤ last)
    (hlast : last ≤ info.numOfBursts) :
    subsetRegion info bands first last = (vectorAt bands 0 >>= fun band =>
      pixelSubsetRegion 0 ((first - 1) * info.linesPerBurst) band.rasterWidth
        ((last - first + 1) * info.linesPerBurst)) := by
  obtain ⟨hy, hdiff, hsucc, hh⟩ := products_fit h1 hle hlast
  rw [subsetRegion, burstIndexOffset, int32_of_fits hy, Outcome.ok_bind,
    burstLines_eq hdiff hsucc, int32_of_fits hh]
  rfl

theorem updateAbstractedMetadata_eq_ok (utc : R → U) (h1 : 1 ≤ first) (hle : first ≤ last)
    (hlast : last ≤ info.numOfBursts) :
    ∃ m, updateAbstractedMetadata utc info first last = .ok m ∧
      m.numOutputLines = info.linesPerBurst * (last - first + 1) ∧
      (∃ time, info.burstFirstLineTime[(first - 1).toNat]? = some time ∧
        m.firstLineTime = utc time) ∧
      (∃ time, info.burstLastLineTime[(last - 1).toNat]? = some time ∧
        m.lastLineTime = utc time) := by
  obtain ⟨-, hdiff, hsucc, hh⟩ := products_fit h1 hle hlast
  have hfirst := info.firstTimes
  have hlasts := info.lastTimes
  have hgeo := info.geoLines
  have hpoints := info.points_pos
  -- every index that is read lies in its list
  obtain ⟨τ, hτ, hτ'⟩ := exists_vectorIndex (v := info.burstFirstLineTime)
    (show 0 ≤ first - 1 by omega) (by omega)
  obtain ⟨σ, hσ, hσ'⟩ := exists_vectorIndex (v := info.burstLastLineTime)
    (show 0 ≤ last - 1 by omega) (by omega)
  obtain ⟨north, hnorth, hnorth'⟩ := exists_vectorIndex (v := info.coordinates)
    (show 0 ≤ first - 1 by omega) (by omega)
  obtain ⟨south, hsouth, hsouth'⟩ := exists_vectorIndex (v := info.coordinates)
    (show 0 ≤ last by omega) (by omega)
  have hnorthlen := info.geoPoints north (List.mem_of_getElem? hnorth')
  have hsouthlen := info.geoPoints south (List.mem_of_getElem? hsouth')
  obtain ⟨nn, hnn, -⟩ := exists_vectorIndex (v := north) (le_refl 0) (by omega)
  obtain ⟨nf, hnf, -⟩ := exists_vectorIndex (v := north)
    (show 0 ≤ info.numOfGeoPointsPerLine - 1 by omega) (by omega)
  obtain ⟨sn, hsn, -⟩ := exists_vectorIndex (v := south) (le_refl 0) (by omega)
  obtain ⟨sf, hsf, -⟩ := exists_vectorIndex (v := south)
    (show 0 ≤ info.numOfGeoPointsPerLine - 1 by omega) (by omega)
  refine ⟨⟨utc τ, utc σ, (last - first + 1) * info.linesPerBurst, nn, nf, sn, sf⟩, ?_, ?_,
    ⟨τ, hτ', rfl⟩, ⟨σ, hσ', rfl⟩⟩
  · simp only [updateAbstractedMetadata, burstIndexOffset, hτ, hσ, burstLines_eq hdiff hsucc,
      int32_of_fits hh, hnorth, hsouth, hnn, hnf, hsn, hsf, Outcome.ok_bind, Outcome.pure_eq]
  · exact mul_comm _ _

/-- Each element of the annotation is cut to the range. -/
theorem cutTo_of_range (utc : R → U) (format : U → String) (h1 : 1 ≤ first) (hle : first ≤ last)
    (hlast : last ≤ info.numOfBursts) {elem : AnnotationElem ε}
    (hlen : (elem.burstList.length : Int) = info.numOfBursts) (hnodup : elem.burstList.Nodup) :
    ∃ cut target, removeBursts first last elem = .ok cut ∧
      updateImageInformation utc format info first last cut = .ok target ∧
      CutTo utc format info first last elem target := by
  obtain ⟨-, hdiff, hsucc, hh⟩ := products_fit h1 hle hlast
  have hfirst := info.firstTimes
  have hlasts := info.lastTimes
  obtain ⟨τ, hτ, hτ'⟩ := exists_vectorIndex (v := info.burstFirstLineTime)
    (show 0 ≤ first - 1 by omega) (by omega)
  obtain ⟨σ, hσ, hσ'⟩ := exists_vectorIndex (v := info.burstLastLineTime)
    (show 0 ≤ last - 1 by omega) (by omega)
  have hslice := removeBurstNodes_eq hnodup h1 hle
  have hcut : removeBursts first last elem = .ok { elem with
      count := toString (last - first + 1)
      burstList := removeBurstNodes first last elem.burstList } := by
    rw [removeBursts, int32_of_fits hdiff, Outcome.ok_bind, burstIndexOffset,
      int32_of_fits hsucc, Outcome.ok_bind, Outcome.pure_eq]
  refine ⟨_, { elem with
      count := toString (last - first + 1)
      burstList := removeBurstNodes first last elem.burstList
      numberOfLines := toString ((last - first + 1) * info.linesPerBurst)
      productFirstLineUtcTime := format (utc τ)
      productLastLineUtcTime := format (utc σ) }, hcut, ?_,
    ⟨rfl, hslice, ?_, rfl, ⟨τ, hτ', rfl⟩, ⟨σ, hσ', rfl⟩⟩⟩
  · rw [updateImageInformation, burstLines_eq hdiff hsucc, int32_of_fits hh, Outcome.ok_bind,
      burstIndexOffset, hτ, Outcome.ok_bind, hσ, Outcome.ok_bind, Outcome.pure_eq]
  -- the count is the number of nodes left
  · simp only [hslice, List.length_take, List.length_drop]
    congr 1
    omega

theorem updateOriginalMetadata_eq_ok (utc : R → U) (format : U → String) (subswath : String)
    (polarisations : List String) (h1 : 1 ≤ first) (hle : first ≤ last)
    (hlast : last ≤ info.numOfBursts) {elems : List (AnnotationElem ε)}
    (helems : ∀ elem ∈ elems, find elem.name.toUpper subswath →
      (elem.burstList.length : Int) = info.numOfBursts ∧ elem.burstList.Nodup) :
    ∃ targets, updateOriginalMetadata utc format info subswath polarisations first last
        (some elems) = .ok targets ∧
      List.Forall₂ (CutTo utc format info first last)
        (removeElements subswath polarisations elems) targets := by
  have hkept : ∀ elem ∈ removeElements subswath polarisations elems,
      (elem.burstList.length : Int) = info.numOfBursts ∧ elem.burstList.Nodup := by
    intro elem helem
    obtain ⟨hmem, hname⟩ := List.mem_filter.mp helem
    rw [Bool.and_eq_true] at hname
    exact helems elem hmem hname.1
  simp only [updateOriginalMetadata]
  generalize removeElements subswath polarisations elems = kept at hkept
  induction kept with
  | nil => exact ⟨[], rfl, .nil⟩
  | cons elem kept ih =>
    obtain ⟨targets, hok, hall⟩ := ih fun e he => hkept e (List.mem_cons_of_mem _ he)
    obtain ⟨hlen, hnodup⟩ := hkept elem List.mem_cons_self
    obtain ⟨cut, target, hcut, htarget, hto⟩ :=
      cutTo_of_range utc format h1 hle hlast hlen hnodup
    obtain ⟨cuts, hcuts, htargets⟩ := Outcome.bind_eq_ok.mp hok
    refine ⟨target :: targets, ?_, .cons hto hall⟩
    rw [List.map_cons, Outcome.collect, hcut, Outcome.ok_bind, hcuts, Outcome.ok_bind,
      Outcome.pure_eq, Outcome.ok_bind, List.map_cons, Outcome.collect, htarget,
      Outcome.ok_bind, htargets, Outcome.ok_bind, Outcome.pure_eq]

end InRange

/-! ## The outcomes of the range -/

section Outcomes

variable {R A ε : Type} (readWkt : String → Option A)
  (isCovered : List (Coordinates R) → A → Bool)

theorem determineBurstIndexesCoveredBy_ne_undefined (aoi : A)
    (edges : List (List (Coordinates R))) :
    determineBurstIndexesCoveredBy isCovered aoi edges ≠ .undefined := by
  have hbox : ∀ upper bottom : List (Coordinates R), getBurstBoxFrom upper bottom ≠ .undefined :=
    fun upper bottom => by
      simp only [getBurstBoxFrom]
      exact Outcome.bind_ne_undefined (vectorAt_ne_undefined _ _) fun _ _ =>
        Outcome.bind_ne_undefined (vectorAt_ne_undefined _ _) fun _ _ =>
          Outcome.bind_ne_undefined (vectorAt_ne_undefined _ _) fun _ _ =>
            Outcome.bind_ne_undefined (vectorAt_ne_undefined _ _) fun _ _ => by simp
  have hstep : ∀ selected i, coveredStep isCovered aoi edges selected i ≠ .undefined :=
    fun selected i =>
      Outcome.bind_ne_undefined (vectorAt_ne_undefined _ _) fun _ _ =>
        Outcome.bind_ne_undefined (vectorAt_ne_undefined _ _) fun _ _ =>
          Outcome.bind_ne_undefined (hbox _ _) fun _ _ => by simp
  have hloop : ∀ (indices : List Int) (selected : List Int),
      indices.foldlM (coveredStep isCovered aoi edges) selected ≠ .undefined := by
    intro indices
    induction indices with
    | nil => intro selected; simp
    | cons i indices ih =>
      intro selected
      rw [List.foldlM_cons]
      exact Outcome.bind_ne_undefined (hstep selected i) fun next _ => ih next
  exact hloop _ _

theorem aoiBursts_ne_undefined (wkt : String) (info : SubSwathInfo R) :
    aoiBursts readWkt isCovered wkt info ≠ .undefined := by
  unfold aoiBursts
  split
  · simp
  · refine Outcome.bind_ne_undefined
      (determineBurstIndexesCoveredBy_ne_undefined isCovered _ _) fun bursts _ => ?_
    split
    · simp
    · refine Outcome.bind_ne_undefined ?_ fun _ _ => by simp
      unfold Outcome.require
      split <;> simp

/-- The area of interest gives a range in order, within the burst count. -/
theorem aoiBursts_eq_ok {wkt : String} {info : SubSwathInfo R} {range : Int × Int}
    (h : aoiBursts readWkt isCovered wkt info = .ok range) :
    range.1 ≤ range.2 ∧ range.2 ≤ info.numOfBursts := by
  unfold aoiBursts at h
  split at h
  · cases h
  · obtain ⟨bursts, -, h⟩ := Outcome.bind_eq_ok.mp h
    split at h
    · cases h
    · obtain ⟨_, hcheck, h⟩ := Outcome.bind_eq_ok.mp h
      have hcheck := Outcome.require_eq_ok.mp hcheck
      obtain rfl := Outcome.ok.inj h
      simp only
      omega

theorem burstRange_ne_undefined (s : Source R ε) (info : SubSwathInfo R) :
    burstRange readWkt isCovered s info ≠ .undefined := by
  refine Outcome.bind_ne_undefined ?_ fun _ _ => Outcome.bind_ne_undefined ?_ fun _ _ => by simp
  · unfold requestedBursts
    split
    · simp
    · exact aoiBursts_ne_undefined readWkt isCovered _ _
  · unfold Outcome.require
    split <;> simp

theorem burstRange_eq_ok {s : Source R ε} {info : SubSwathInfo R} {range : Int × Int}
    (h : burstRange readWkt isCovered s info = .ok range) :
    1 ≤ range.1 ∧ range.2 ≤ info.numOfBursts ∧
      (s.burstAoiWkt.isEmpty = false → range.1 ≤ range.2) ∧
      (s.burstAoiWkt.isEmpty = true →
        range = (burstIndex s.firstBurst, clampedLastBurst s info)) := by
  unfold burstRange at h
  obtain ⟨r, hr, h⟩ := Outcome.bind_eq_ok.mp h
  obtain ⟨_, hcheck, h⟩ := Outcome.bind_eq_ok.mp h
  have hcheck := Outcome.require_eq_ok.mp hcheck
  obtain rfl := Outcome.ok.inj h
  unfold burstIndexOffset at hcheck
  unfold requestedBursts at hr
  split at hr
  · next hempty =>
    obtain rfl := Outcome.ok.inj hr
    refine ⟨by omega, ?_, fun hno => ?_, fun _ => ?_⟩
    · unfold clampedLastBurst
      split <;> omega
    · rw [hno] at hempty
      cases hempty
    · rfl
  · next hempty =>
    obtain ⟨hle, hlast⟩ := aoiBursts_eq_ok readWkt isCovered hr
    exact ⟨by omega, hlast, fun _ => hle, fun hyes => absurd hyes hempty⟩

/-- Past the last burst the region is rejected, as long as the products fit. -/
theorem subsetRegion_past (info : SubSwathInfo R) (bands : List Band) {first last : Int}
    (hpast : last < first) :
    (∀ region, subsetRegion info bands first last ≠ .ok region) ∧
      (subsetRegion info bands first last = .throws ↔
        Fits 32 ((first - 1) * info.linesPerBurst) ∧
          (bands = [] ∨ (Fits 32 (last - first) ∧
            Fits 32 ((last - first + 1) * info.linesPerBurst)))) := by
  -- the height of the region is not positive, which the subset refuses
  have hheight : (last - first + 1) * info.linesPerBurst ≤ 0 :=
    Int.mul_nonpos_of_nonpos_of_nonneg (by omega) info.lines_pos.le
  unfold subsetRegion burstIndexOffset
  by_cases hy : Fits 32 ((first - 1) * info.linesPerBurst)
  · rw [int32_of_fits hy, Outcome.ok_bind]
    cases bands with
    | nil => exact ⟨fun _ h => (nomatch h), ⟨fun _ => ⟨hy, .inl rfl⟩, fun _ => rfl⟩⟩
    | cons band bands =>
      rw [show vectorAt (band :: bands) 0 = .ok band from rfl, Outcome.ok_bind]
      by_cases hdiff : Fits 32 (last - first)
      · have hsucc : Fits 32 (last - first + 1) := by
          rw [fits32_iff] at hdiff ⊢
          omega
        rw [burstLines_eq hdiff hsucc]
        by_cases hh : Fits 32 ((last - first + 1) * info.linesPerBurst)
        · rw [int32_of_fits hh, Outcome.ok_bind, pixelSubsetRegion,
            Outcome.require_of_not (by omega), Outcome.throws_bind]
          exact ⟨fun _ h => (nomatch h), ⟨fun _ => ⟨hy, .inr ⟨hdiff, hh⟩⟩, fun _ => rfl⟩⟩
        · rw [int32, if_neg hh, Outcome.undefined_bind]
          exact ⟨fun _ h => (nomatch h), ⟨fun h => (nomatch h), fun h => absurd h (by simp [hh])⟩⟩
      · rw [burstLines, int32, if_neg hdiff, Outcome.undefined_bind, Outcome.undefined_bind]
        exact ⟨fun _ h => (nomatch h),
          ⟨fun h => (nomatch h), fun h => absurd h (by simp [hdiff])⟩⟩
  · rw [int32, if_neg hy, Outcome.undefined_bind]
    exact ⟨fun _ h => (nomatch h), ⟨fun h => (nomatch h), fun h => absurd h.1 hy⟩⟩

end Outcomes

/-! ## Results -/

section Results

variable {R U A ε : Type} [DecidableEq ε] (utc : R → U) (format : U → String)
  (readWkt : String → Option A) (isCovered : List (Coordinates R) → A → Bool)

/-- The operator throws, or its edits describe one range of bursts. -/
def SplitCorrect (s : SplitOperator R ε) : Prop :=
  splitInitialize utc format readWkt isCovered s.toSource = .throws ∨
    ∃ subswath info t, splitInitialize utc format readWkt isCovered s.toSource = .ok t ∧
      s.subswathName = .ok subswath ∧ s.selectedSubswathInfo subswath = .ok info ∧
      Consistent utc format s.toSource subswath info t

/-- Where the burst indices are used as they are and the first lies past the last, the products
of the region fit an `int`. -/
def ProductsFit (s : Source R ε) : Prop :=
  ∀ subswath info, s.isValid → s.subswathName = .ok subswath →
    s.selectedSubswathInfo subswath = .ok info → s.burstAoiWkt.isEmpty = true →
    1 ≤ burstIndex s.firstBurst →
    clampedLastBurst s info < burstIndex s.firstBurst →
      Fits 32 ((burstIndex s.firstBurst - 1) * info.linesPerBurst) ∧
        ((s.selectBands subswath).2 = [] ∨
          (Fits 32 (clampedLastBurst s info - burstIndex s.firstBurst) ∧
            Fits 32 ((clampedLastBurst s info -
              burstIndex s.firstBurst + 1) * info.linesPerBurst)))

/-- A range inside the burst count is applied to every edit, or a check throws. -/
theorem applyRange_of_range (s : SplitOperator R ε) {subswath : String} {info : SubSwathInfo R}
    (hname : s.subswathName = .ok subswath) (hinfo : s.selectedSubswathInfo subswath = .ok info)
    {first last : Int} (h1 : 1 ≤ first) (hle : first ≤ last) (hlast : last ≤ info.numOfBursts) :
    applyRange utc format s.toSource subswath info first last = .throws ∨
      ∃ t, applyRange utc format s.toSource subswath info first last = .ok t ∧
        Consistent utc format s.toSource subswath info t := by
  have hL := info.lines_pos
  obtain ⟨m, hm, hlines, hfirstTime, hlastTime⟩ :=
    updateAbstractedMetadata_eq_ok utc h1 hle hlast
  simp only [applyRange]
  rw [subsetRegion_eq h1 hle hlast]
  -- without a band, or without annotations, the split throws
  rcases hbands : (s.selectBands subswath).2 with _ | ⟨band, bands⟩
  · exact .inl rfl
  · rw [show vectorAt (band :: bands) 0 = .ok band from rfl, Outcome.ok_bind]
    rcases pixelSubsetRegion_eq 0 ((first - 1) * info.linesPerBurst) band.rasterWidth
      ((last - first + 1) * info.linesPerBurst) with hregion | hregion
    · rw [hregion]
      exact .inl rfl
    · rw [hregion, Outcome.ok_bind, hm, Outcome.ok_bind]
      cases hann : s.annotations with
      | none => exact .inl rfl
      | some elems =>
        obtain ⟨targets, htargets, hall⟩ := updateOriginalMetadata_eq_ok utc format subswath
          (s.selectBands subswath).1 h1 hle hlast
          (s.annotation_bursts subswath info hname hinfo elems hann)
        rw [htargets]
        refine .inr ⟨_, rfl, ⟨⟨h1, hle, hlast⟩, ⟨rfl, by simp only; ring⟩, ⟨?_, ?_⟩, hlines,
          hfirstTime, hlastTime, ⟨elems, hann, hall⟩⟩⟩
        · exact Int.mul_nonneg (by omega) hL.le
        · intro other hother
          have hmem := Source.selectBands_mem hother
          rw [s.bands_height subswath info hname hinfo other hmem.1 hmem.2]
          calc (first - 1) * info.linesPerBurst + (last - first + 1) * info.linesPerBurst
              = last * info.linesPerBurst := by ring
            _ ≤ info.numOfBursts * info.linesPerBurst :=
              Int.mul_le_mul_of_nonneg_right hlast hL.le

/-- A range past the last burst is never applied: it is rejected, or the products overflow. -/
theorem applyRange_past (s : Source R ε) (subswath : String) (info : SubSwathInfo R)
    {first last : Int} (hpast : last < first) :
    (∀ t, applyRange utc format s subswath info first last ≠ .ok t) ∧
      (applyRange utc format s subswath info first last = .throws ↔
        Fits 32 ((first - 1) * info.linesPerBurst) ∧
          ((s.selectBands subswath).2 = [] ∨ (Fits 32 (last - first) ∧
            Fits 32 ((last - first + 1) * info.linesPerBurst)))) := by
  obtain ⟨hnot, hthrows⟩ :=
    subsetRegion_past info (s.selectBands subswath).2 hpast
  rw [← hthrows]
  simp only [applyRange]
  cases hregion : subsetRegion info (s.selectBands subswath).2 first last with
  | ok region => exact absurd hregion (hnot region)
  | throws => exact ⟨fun _ h => (nomatch h), ⟨fun _ => rfl, fun _ => rfl⟩⟩
  | undefined => exact ⟨fun _ h => (nomatch h), ⟨fun h => (nomatch h), fun h => (nomatch h)⟩⟩

theorem splitInitialize_eq {s : Source R ε} {subswath : String} {info : SubSwathInfo R}
    (hvalid : s.isValid) (hname : s.subswathName = .ok subswath)
    (hinfo : s.selectedSubswathInfo subswath = .ok info) :
    splitInitialize utc format readWkt isCovered s =
      (burstRange readWkt isCovered s info >>= fun range =>
        applyRange utc format s subswath info range.1 range.2) := by
  rw [splitInitialize, Outcome.require_of hvalid, Outcome.ok_bind, hname, Outcome.ok_bind, hinfo,
    Outcome.ok_bind]

/-- Before the burst range the operator throws or goes on. -/
theorem splitInitialize_cases (s : Source R ε) :
    splitInitialize utc format readWkt isCovered s = .throws ∨
      ∃ subswath info, s.isValid ∧ s.subswathName = .ok subswath ∧
        s.selectedSubswathInfo subswath = .ok info := by
  unfold splitInitialize
  cases hvalid : s.isValid with
  | false => exact .inl rfl
  | true =>
    cases hname : s.subswathName with
    | undefined => exact absurd hname s.subswathName_ne_undefined
    | throws => exact .inl rfl
    | ok subswath =>
      cases hinfo : s.selectedSubswathInfo subswath with
      | undefined => exact absurd hinfo (s.selectedSubswathInfo_ne_undefined subswath)
      | throws =>
        refine .inl ?_
        rw [Outcome.require_of rfl, Outcome.ok_bind, Outcome.ok_bind, hinfo, Outcome.throws_bind]
      | ok info => exact .inr ⟨subswath, info, rfl, rfl, hinfo⟩

variable {utc format readWkt isCovered} in
theorem SplitCorrect.productsFit {s : SplitOperator R ε}
    (h : SplitCorrect utc format readWkt isCovered s) : ProductsFit s.toSource := by
  intro subswath info hvalid hname hinfo hempty hfirst hpast
  have hrange : burstRange readWkt isCovered s.toSource info =
      .ok (burstIndex s.firstBurst, clampedLastBurst s.toSource info) := by
    have hcheck : ¬ burstIndex s.firstBurst < burstIndexOffset := not_lt.mpr hfirst
    rw [burstRange, requestedBursts, if_pos hempty, Outcome.ok_bind, Outcome.require_of hcheck,
      Outcome.ok_bind, Outcome.pure_eq]
  obtain ⟨hnot, hthrows⟩ := applyRange_past utc format s.toSource subswath info hpast
  rw [SplitCorrect, splitInitialize_eq utc format readWkt isCovered hvalid hname hinfo, hrange,
      Outcome.ok_bind] at h
  dsimp only at h
  rcases h with h | ⟨_, _, t, h, _⟩
  · exact hthrows.mp h
  · exact absurd h (hnot t)

/-- **When a split keeps the product consistent.** The operator throws, or it yields a range
`1 ≤ first ≤ last ≤ B` that the region, the metadata and the burst lists all describe, exactly
when the products of a range that lies past the last burst fit an `int`: only the height of the
region rejects such a range. -/
theorem splitCorrect_iff (utc : R → U) (format : U → String) (readWkt : String → Option A)
    (isCovered : List (Coordinates R) → A → Bool) (s : SplitOperator R ε) :
    SplitCorrect utc format readWkt isCovered s ↔ ProductsFit s.toSource := by
  refine ⟨fun h => h.productsFit, fun hfit => ?_⟩
  rcases splitInitialize_cases utc format readWkt isCovered s.toSource with
    hthrows | ⟨subswath, info, hvalid, hname, hinfo⟩
  · exact .inl hthrows
  · rw [SplitCorrect, splitInitialize_eq utc format readWkt isCovered hvalid hname hinfo]
    cases hrange : burstRange readWkt isCovered s.toSource info with
    | undefined => exact absurd hrange (burstRange_ne_undefined readWkt isCovered _ _)
    | throws => exact .inl rfl
    | ok range =>
      obtain ⟨h1, hlast, haoi, hindex⟩ := burstRange_eq_ok readWkt isCovered hrange
      rw [Outcome.ok_bind]
      rcases le_or_gt range.1 range.2 with hle | hpast
      · rcases applyRange_of_range utc format s hname hinfo h1 hle hlast with
          hthrows | ⟨t, hok, hcons⟩
        · exact .inl hthrows
        · exact .inr ⟨subswath, info, t, hok, hname, hinfo, hcons⟩
      -- only indices that are used as they are can be out of order
      · have hempty : s.burstAoiWkt.isEmpty = true := by
          by_contra hno
          have hle := haoi (Bool.eq_false_iff.mpr hno)
          omega
        obtain rfl := hindex hempty
        dsimp only at hpast h1 ⊢
        exact .inl ((applyRange_past utc format s.toSource subswath info hpast).2.mpr
          (hfit subswath info hvalid hname hinfo hempty h1 hpast))

/-- The record of one burst of 1500 lines. -/
def oneBurst : SubSwathInfo Nat where
  subswathName := "IW1"
  numOfBursts := 1
  linesPerBurst := 1500
  burstFirstLineTime := [0]
  burstLastLineTime := [3]
  numOfGeoPointsPerLine := 1
  coordinates := [[⟨0, 1⟩], [⟨0, 0⟩]]
  bursts_nonneg := by decide
  lines_pos := by decide
  raster_fits := by decide
  firstTimes := rfl
  lastTimes := rfl
  points_pos := Int.one_pos
  geoLines := by decide
  geoPoints := by simp

/-- A first burst whose row does not fit an `int`. -/
def farSource : Source Nat Nat where
  isValid := true
  subSwathNames := ["IW1"]
  subSwaths := [oneBurst]
  polarizations := ["VV"]
  bands := [⟨"i_IW1_VV", 20000, 1500⟩]
  annotations := some [⟨"s1a-iw1-slc-vv", "1", [0], "1500", "", ""⟩]
  subswath := "IW1"
  selectedPolarisations := ["VV"]
  burstAoiWkt := ""
  firstBurst := 1073741825
  lastBurst := 9999

theorem farSource_selected {subswath : String} {info : SubSwathInfo Nat}
    (hname : farSource.subswathName = .ok subswath)
    (hinfo : farSource.selectedSubswathInfo subswath = .ok info) : info = oneBurst := by
  obtain rfl := Outcome.ok.inj (show Outcome.ok "IW1" = .ok subswath from hname)
  exact (Outcome.ok.inj (show Outcome.ok oneBurst = .ok info from hinfo)).symm

def farBurst : SplitOperator Nat Nat where
  toSource := farSource
  bands_height := by
    intro subswath info hname hinfo band hband _
    obtain rfl := farSource_selected hname hinfo
    obtain rfl := List.mem_singleton.mp hband
    rfl
  annotation_bursts := by
    intro subswath info hname hinfo elems helems elem helem _
    obtain rfl := farSource_selected hname hinfo
    obtain rfl := Option.some.inj helems
    obtain rfl := List.mem_singleton.mp helem
    exact ⟨rfl, List.nodup_singleton 0⟩

theorem not_splitCorrect_farBurst :
    ¬ SplitCorrect (fun seconds : Nat => seconds) toString (fun _ => (none : Option Unit))
      (fun _ _ => false) farBurst := by
  intro h
  have hfit := (h.productsFit "IW1" oneBurst rfl rfl rfl rfl (by decide) (by decide)).1
  exact absurd hfit (by decide)

end Results

end Alus.TopsarSplit
