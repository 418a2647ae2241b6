import Alus.Etad.Preparation

/-!
# Sampling the grid of an associated burst

`SampleGrid` of `etad_computation.cuh` interpolates a layer of an ETAD burst at a time, and has no
value where the four neighbours are not in the grid. `ComputeEtadCorrection` samples the layers at
the lines and samples of the SLC burst the ETAD burst is associated with, which its coverage
contains. The layers have the dimensions of the burst's grid.

Samples are exact numbers, or NaN.
-/

namespace Alus.Etad

open Alus.Lib

/-- `GridView`, with the values it points to. -/
structure GridView (T : Type) where
  values : List (Option T)
  rows : Int
  columns : Int

structure GridGeometry (T : Type) where
  azimuthOrigin : T
  rangeOrigin : T
  azimuthStep : T
  rangeStep : T

section Sample

variable {T : Type} [Field T] [LinearOrder T] [FloorRing T]

/-- The interpolation between four samples, NaN if one is. -/
def interpolateSamples (dr dc : T) : Option T → Option T → Option T → Option T → Option T
  | some c00, some c01, some c10, some c11 =>
    some ((1 - dr) * ((1 - dc) * c00 + dc * c01) + dr * ((1 - dc) * c10 + dc * c11))
  | _, _, _, _ => none

/-- `SampleGrid`. -/
def sampleGrid (grid : GridView T) (geometry : GridGeometry T) (azimuthTime rangeTime : T) :
    Outcome (Option T) :=
  let row := (azimuthTime - geometry.azimuthOrigin) / geometry.azimuthStep
  let column := (rangeTime - geometry.rangeOrigin) / geometry.rangeStep
  if grid.rows < 2 ∨ grid.columns < 2 ∨ row < 0 ∨ column < 0 ∨
      row ≥ ((grid.rows - 1 : Int) : T) ∨ column ≥ ((grid.columns - 1 : Int) : T) then
    return none
  else do
    let r := ⌊row⌋
    let c := ⌊column⌋
    let c00 ← vectorIndex grid.values (r * grid.columns + c)
    let c01 ← vectorIndex grid.values (r * grid.columns + c + 1)
    let c10 ← vectorIndex grid.values ((r + 1) * grid.columns + c)
    let c11 ← vectorIndex grid.values ((r + 1) * grid.columns + c + 1)
    return interpolateSamples (row - r) (column - c) c00 c01 c10 c11

/-- `Geometry`. -/
def Burst.geometry (burst : Burst T) : GridGeometry T :=
  ⟨burst.coverage.azimuthMin, burst.coverage.rangeMin, burst.samplingAzimuth,
    burst.samplingRange⟩

/-- The azimuth time of a line and the range time of a sample, in `ComputeEtadCorrection`. -/
def azimuthTime (slc : Slc.Metadata T) (source : Slc.Burst T) (line : Nat) : T :=
  source.firstLineTime + (line : T) * slc.raster.azimuthTimeInterval

def rangeTime (slc : Slc.Metadata T) (sample : Nat) : T :=
  slc.raster.firstRangeTime + (sample : T) * slc.raster.rangeTimeInterval

/-! ## The domain of the grid -/

/-- A layer of the burst: as many values as the grid has points, all finite. -/
structure GridView.FiniteLayer (grid : GridView T) (burst : Burst T) : Prop where
  rows : grid.rows = burst.rows
  columns : grid.columns = burst.columns
  length : (grid.values.length : Int) = burst.rows * burst.columns
  finite : ∀ value ∈ grid.values, value ≠ none

/-- The time point lies before the last row and column of the burst's grid. -/
def Burst.InGrid (burst : Burst T) (azimuthTime rangeTime : T) : Prop :=
  azimuthTime < burst.coverage.azimuthMin + ((burst.rows - 1 : Int) : T) * burst.samplingAzimuth ∧
    rangeTime < burst.coverage.rangeMin + ((burst.columns - 1 : Int) : T) * burst.samplingRange

omit [Field T] [LinearOrder T] [FloorRing T] in
theorem exists_finite {grid : GridView T} {burst : Burst T} (hlayer : grid.FiniteLayer burst)
    {r c : Int} (hr : 0 ≤ r) (hr_lt : r < burst.rows) (hc : 0 ≤ c) (hc_lt : c < burst.columns) :
    ∃ value, vectorIndex grid.values (r * grid.columns + c) = .ok (some value) := by
  rw [hlayer.columns]
  have hfirst : 0 ≤ r * burst.columns := Int.mul_nonneg hr (by omega)
  have hlast : (r + 1) * burst.columns ≤ burst.rows * burst.columns :=
    Int.mul_le_mul_of_nonneg_right (by omega) (by omega)
  rw [Int.add_mul, Int.one_mul, ← hlayer.length] at hlast
  obtain ⟨sample, hsample, hget⟩ := exists_vectorIndex (v := grid.values)
    (i := r * burst.columns + c) (by omega) (by omega)
  have hmem := List.mem_of_getElem? hget
  cases sample with
  | none => exact absurd rfl (hlayer.finite none hmem)
  | some value => exact ⟨value, hsample⟩

omit [Field T] [LinearOrder T] [FloorRing T] in
/-- The four neighbours of a point before the last row and column are values of the layer. -/
theorem exists_neighbours {grid : GridView T} {burst : Burst T} (hlayer : grid.FiniteLayer burst)
    {r c : Int} (hr : 0 ≤ r) (hr_lt : r + 1 < burst.rows) (hc : 0 ≤ c)
    (hc_lt : c + 1 < burst.columns) :
    ∃ c00 c01 c10 c11 : T,
      vectorIndex grid.values (r * grid.columns + c) = .ok (some c00) ∧
      vectorIndex grid.values (r * grid.columns + c + 1) = .ok (some c01) ∧
      vectorIndex grid.values ((r + 1) * grid.columns + c) = .ok (some c10) ∧
      vectorIndex grid.values ((r + 1) * grid.columns + c + 1) = .ok (some c11) := by
  obtain ⟨c00, h00⟩ := exists_finite hlayer hr (by omega) hc (by omega)
  obtain ⟨c01, h01⟩ := exists_finite (c := c + 1) hlayer hr (by omega) (by omega) (by omega)
  obtain ⟨c10, h10⟩ := exists_finite (r := r + 1) hlayer (by omega) (by omega) hc (by omega)
  obtain ⟨c11, h11⟩ := exists_finite (r := r + 1) (c := c + 1) hlayer (by omega) (by omega)
    (by omega) (by omega)
  rw [← Int.add_assoc] at h01 h11
  exact ⟨c00, c01, c10, c11, h00, h01, h10, h11⟩

variable [IsStrictOrderedRing T]

omit [FloorRing T] in
/-- The grid coordinate of a time is before the last of `count` points a step apart. -/
theorem coordinate_lt_iff {time origin step : T} (hstep : 0 < step) (count : Int) :
    (time - origin) / step < ((count - 1 : Int) : T) ↔
      time < origin + ((count - 1 : Int) : T) * step := by
  rw [div_lt_iff₀ hstep, sub_lt_iff_lt_add']

omit [IsStrictOrderedRing T] in
theorem floor_in_count {t : T} {count : Int} (h0 : 0 ≤ t) (hlt : t < ((count - 1 : Int) : T)) :
    0 ≤ ⌊t⌋ ∧ ⌊t⌋ + 1 < count := by
  have hlow := Int.floor_nonneg.mpr h0
  have hhigh := Int.floor_lt.mpr hlt
  omega

/-- Inside its coverage, a finite layer has a value exactly before its last row and column. -/
theorem sampleGrid_eq {burst : Burst T} (hvalid : burst.Valid) {grid : GridView T}
    (hlayer : grid.FiniteLayer burst) {azimuth range : T}
    (hazimuth : burst.coverage.azimuthMin ≤ azimuth) (hrange : burst.coverage.rangeMin ≤ range) :
    (burst.InGrid azimuth range →
      ∃ value, sampleGrid grid burst.geometry azimuth range = .ok (some value)) ∧
    (¬ burst.InGrid azimuth range →
      sampleGrid grid burst.geometry azimuth range = .ok none) := by
  have hstepA := hvalid.samplingAzimuth_pos
  have hstepR := hvalid.samplingRange_pos
  have hrow : 0 ≤ (azimuth - burst.coverage.azimuthMin) / burst.samplingAzimuth :=
    div_nonneg (by linarith) hstepA.le
  have hcolumn : 0 ≤ (range - burst.coverage.rangeMin) / burst.samplingRange :=
    div_nonneg (by linarith) hstepR.le
  rw [Burst.InGrid, ← coordinate_lt_iff hstepA, ← coordinate_lt_iff hstepR]
  constructor
  · rintro ⟨hrow_lt, hcolumn_lt⟩
    have hr := floor_in_count hrow hrow_lt
    have hc := floor_in_count hcolumn hcolumn_lt
    obtain ⟨c00, c01, c10, c11, h00, h01, h10, h11⟩ :=
      exists_neighbours hlayer hr.1 hr.2 hc.1 hc.2
    refine ⟨?value, (if_neg ?guard).trans ?read⟩
    case guard =>
      rw [hlayer.rows, hlayer.columns]
      rintro (h | h | h | h | h | h)
      · omega
      · omega
      · exact absurd h (not_lt.mpr hrow)
      · exact absurd h (not_lt.mpr hcolumn)
      · exact absurd h (not_le.mpr hrow_lt)
      · exact absurd h (not_le.mpr hcolumn_lt)
    case read =>
      simp only [Burst.geometry]
      rw [h00, h01, h10, h11]
      rfl
  -- the guard against the last row and column is the one that holds
  · intro houtside
    apply if_pos
    rw [hlayer.rows, hlayer.columns]
    rw [not_and_or, not_lt, not_lt] at houtside
    rcases houtside with hrowOut | hcolumnOut
    · exact .inr (.inr (.inr (.inr (.inl hrowOut))))
    · exact .inr (.inr (.inr (.inr (.inr hcolumnOut))))

/-- The layers of an associated burst have a value at exactly the lines and samples before the
last row and column of its grid, and nothing outside them is read. -/
theorem sampleGrid_burst {readers : Readers T} {slcDocument etadDocument : XmlNode}
    {productName : String} {slc : Slc.Metadata T} {etad : Metadata T} {selection : BurstSelection}
    {result : AcquisitionAssociation}
    (hslc : Slc.parseAnnotation readers slcDocument productName = .ok slc)
    (hetad : parseAnnotation readers etadDocument = .ok etad)
    (hassociate : associateBursts slc selection etad = .ok result) :
    ∀ entry ∈ result.bursts, ∃ source burst,
      slc.bursts[entry.slcBurstIndex]? = some source ∧
      getBurst etad entry.etadBIndex = .ok burst ∧
      ∀ grid : GridView T, grid.FiniteLayer burst → ∀ line sample : Nat,
        line < slc.raster.linesPerBurst → sample < slc.raster.samplesPerBurst →
        (burst.InGrid (azimuthTime slc source line) (rangeTime slc sample) →
          ∃ value, sampleGrid grid burst.geometry (azimuthTime slc source line)
            (rangeTime slc sample) = .ok (some value)) ∧
        (¬ burst.InGrid (azimuthTime slc source line) (rangeTime slc sample) →
          sampleGrid grid burst.geometry (azimuthTime slc source line)
            (rangeTime slc sample) = .ok none) := by
  intro entry hentry
  obtain ⟨hconsistent, hvalid⟩ := parseAnnotation_consistent hetad
  obtain ⟨acquisition, swath, hcorrect⟩ := associateBursts_eq_ok hassociate
  obtain ⟨i, hi⟩ := List.getElem?_of_mem hentry
  obtain ⟨source, burst, hpair⟩ := hcorrect.entries i entry hi
  refine ⟨source, burst, hpair.slcBurstIndex ▸ hpair.source_eq,
    hpair.etadBIndex ▸ hconsistent.getBurst_eq hpair.burst_mem, ?_⟩
  intro grid hlayer line sample _ _
  have hraster := Slc.parseAnnotation_raster_valid hslc
  obtain ⟨hfirstLine, -, hfirstRange, -⟩ := hpair.covers
  -- every line is after the first, and every sample
  have hline : 0 ≤ (line : T) * slc.raster.azimuthTimeInterval :=
    mul_nonneg (Nat.cast_nonneg line) hraster.azimuthTimeInterval_pos.le
  have hsample : 0 ≤ (sample : T) * slc.raster.rangeTimeInterval :=
    mul_nonneg (Nat.cast_nonneg sample) hraster.rangeTimeInterval_pos.le
  apply sampleGrid_eq (hvalid burst hpair.burst_mem) hlayer
  · unfold azimuthTime
    linarith
  · unfold rangeTime
    linarith

end Sample

/-! ## A grid that ends with its burst, and one that does not -/

/-- A layer of zeros. -/
def flatLayer (rows columns : Nat) : GridView ℚ :=
  ⟨List.replicate (rows * columns) (some 0), rows, columns⟩

/-- Eleven rows and columns, a second apart, reach beyond the burst of the sample products. -/
theorem sampleGrid_burst_sample :
    ∃ source burst, Slc.sampleMetadata.bursts[0]? = some source ∧
      getBurst (sampleMetadata 11 11) 7 = .ok burst ∧
      ∀ grid : GridView ℚ, grid.FiniteLayer burst → ∀ line sample : Nat,
        line < Slc.sampleMetadata.raster.linesPerBurst →
        sample < Slc.sampleMetadata.raster.samplesPerBurst →
        (burst.InGrid (azimuthTime Slc.sampleMetadata source line)
            (rangeTime Slc.sampleMetadata sample) →
          ∃ value, sampleGrid grid burst.geometry (azimuthTime Slc.sampleMetadata source line)
            (rangeTime Slc.sampleMetadata sample) = .ok (some value)) ∧
        (¬ burst.InGrid (azimuthTime Slc.sampleMetadata source line)
            (rangeTime Slc.sampleMetadata sample) →
          sampleGrid grid burst.geometry (azimuthTime Slc.sampleMetadata source line)
            (rangeTime Slc.sampleMetadata sample) = .ok none) :=
  sampleGrid_burst Slc.parseAnnotation_sample parseAnnotation_sample
    (show associateBursts Slc.sampleMetadata ⟨0, 1⟩ (sampleMetadata 11 11) =
      .ok ⟨1, [⟨0, 0, 0, 7⟩]⟩ by decide +kernel) ⟨0, 0, 0, 7⟩ List.mem_cons_self

/-- Two rows and columns end a second after the coverage begins, which both annotations and the
association accept: the last line and sample of the burst have no value. -/
theorem sampleGrid_burst_hole :
    Slc.parseAnnotation sampleReaders Slc.sampleDocument
        "S1A_IW_SLC__1SDV_20000101T000010_20000101T000020_000042_2" = .ok Slc.sampleMetadata ∧
      parseAnnotation sampleReaders (sampleDocument "2" "2") = .ok (sampleMetadata 2 2) ∧
      associateBursts Slc.sampleMetadata ⟨0, 1⟩ (sampleMetadata 2 2) =
        .ok ⟨1, [⟨0, 0, 0, 7⟩]⟩ ∧
      ∃ burst, getBurst (sampleMetadata 2 2) 7 = .ok burst ∧
        (flatLayer 2 2).FiniteLayer burst ∧
        sampleGrid (flatLayer 2 2) burst.geometry
          (azimuthTime Slc.sampleMetadata ⟨201 / 20⟩ 9) (rangeTime Slc.sampleMetadata 4) =
            .ok none := by
  refine ⟨Slc.parseAnnotation_sample, by decide +kernel, by decide +kernel, _, rfl, ?_,
    by decide +kernel⟩
  exact ⟨rfl, rfl, by decide +kernel, by decide +kernel⟩

end Alus.Etad
