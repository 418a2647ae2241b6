import Alus.Backgeocoding.SlavePixPos
import Alus.Etad.SampleGrid

/-!
# The ETAD correction of a pair

`EtadCorrection` (`etad_correction.cu`) has the prepared bursts of both acquisitions on the device.
For each pixel of a tile it samples the layers of the reference burst at the pixel's own times and
those of the secondary burst at the times of its slave position, and takes the difference of the
phases. Positions and phases are exact numbers; a correction that is not valid is NaN.
-/

namespace Alus.Backgeocoding

open Alus.Lib
open Alus.Etad (GridView GridGeometry sampleGrid)

variable {T : Type}

/-- A layer has as many values as its grid has points. -/
def Sized (grid : GridView T) : Prop := (grid.values.length : Int) = grid.rows * grid.columns

structure SlcBurstGeometry (T : Type) where
  firstLineTime : T
  azimuthTimeInterval : T
  firstRangeTime : T
  rangeTimeInterval : T
  lines : Nat
  samples : Nat

structure EtadBurstDescriptor (T : Type) where
  slcGeometry : SlcBurstGeometry T
  etadGeometry : GridGeometry T
  phase : GridView T
  height : GridView T
  gradient : GridView T
  firstOutputLine : Nat
  phase_sized : Sized phase
  height_sized : Sized height
  gradient_sized : Sized gradient

variable [Field T] [LinearOrder T] [FloorRing T]

/-- `DifferentialPhase`. -/
def differentialPhase (referencePhase secondaryPhase referenceHeight secondaryHeight
    secondaryGradient : Option T) : Option T := do
  return (← referencePhase) - (← secondaryPhase) -
    (← secondaryGradient) * ((← referenceHeight) - (← secondaryHeight))

/-- `ComputeEtadCorrection`, for the pixel `(x, y)` of the reference with this slave position. -/
def computeEtadCorrection (reference secondary : EtadBurstDescriptor T) (x y : Int)
    (mapped : T × T) : Outcome (Option T) :=
  if mapped.1 = invalidIndex ∧ mapped.2 = invalidIndex then
    return none
  else
    let referenceAzimuth := reference.slcGeometry.firstLineTime +
      ((y : T) - reference.firstOutputLine) * reference.slcGeometry.azimuthTimeInterval
    let referenceRange := reference.slcGeometry.firstRangeTime +
      (x : T) * reference.slcGeometry.rangeTimeInterval
    let secondaryLine := mapped.2 - secondary.firstOutputLine
    if secondaryLine < 0 ∨ secondaryLine ≥ secondary.slcGeometry.lines ∨ mapped.1 < 0 ∨
        mapped.1 ≥ secondary.slcGeometry.samples then
      return none
    else do
      let secondaryAzimuth := secondary.slcGeometry.firstLineTime +
        secondaryLine * secondary.slcGeometry.azimuthTimeInterval
      let secondaryRange := secondary.slcGeometry.firstRangeTime +
        mapped.1 * secondary.slcGeometry.rangeTimeInterval
      let referencePhase ←
        sampleGrid reference.phase reference.etadGeometry referenceAzimuth referenceRange
      let referenceHeight ←
        sampleGrid reference.height reference.etadGeometry referenceAzimuth referenceRange
      let secondaryPhase ←
        sampleGrid secondary.phase secondary.etadGeometry secondaryAzimuth secondaryRange
      let secondaryHeight ←
        sampleGrid secondary.height secondary.etadGeometry secondaryAzimuth secondaryRange
      let secondaryGradient ←
        sampleGrid secondary.gradient secondary.etadGeometry secondaryAzimuth secondaryRange
      return differentialPhase referencePhase secondaryPhase referenceHeight secondaryHeight
        secondaryGradient

structure EtadCorrection (T : Type) where
  reference : List (EtadBurstDescriptor T)
  secondary : List (EtadBurstDescriptor T)

/-- The bursts that `Compute` takes. -/
def EtadCorrection.bursts (correction : EtadCorrection T)
    (referenceBurstIndex secondaryBurstIndex : Int) :
    Outcome (EtadBurstDescriptor T × EtadBurstDescriptor T) := do
  Outcome.require (¬ (referenceBurstIndex < 0 ∨
    referenceBurstIndex ≥ correction.reference.length ∨ secondaryBurstIndex < 0 ∨
    secondaryBurstIndex ≥ correction.secondary.length))
  return (← vectorIndex correction.reference referenceBurstIndex,
    ← vectorIndex correction.secondary secondaryBurstIndex)

/-! ## Every correction is computed -/

omit [Field T] [LinearOrder T] [FloorRing T] in
theorem Sized.exists_value {grid : GridView T} (h : Sized grid) {r c : Int} (hr : 0 ≤ r)
    (hr_lt : r < grid.rows) (hc : 0 ≤ c) (hc_lt : c < grid.columns) :
    ∃ value, vectorIndex grid.values (r * grid.columns + c) = .ok value := by
  have hfirst : 0 ≤ r * grid.columns := Int.mul_nonneg hr (by omega)
  have hlast : (r + 1) * grid.columns ≤ grid.rows * grid.columns :=
    Int.mul_le_mul_of_nonneg_right (by omega) (by omega)
  rw [Int.add_mul, Int.one_mul, ← h] at hlast
  obtain ⟨value, hvalue, -⟩ := exists_vectorIndex (v := grid.values)
    (i := r * grid.columns + c) (by omega) (by omega)
  exact ⟨value, hvalue⟩

/-- A point before the last row and column has its four neighbours in the layer. -/
theorem Sized.exists_sample {grid : GridView T} (h : Sized grid) (geometry : GridGeometry T)
    (azimuthTime rangeTime : T) :
    ∃ sample, sampleGrid grid geometry azimuthTime rangeTime = .ok sample := by
  unfold sampleGrid
  dsimp only
  split_ifs with houtside
  · exact ⟨none, rfl⟩
  · simp only [not_or, not_lt, ge_iff_le, not_le] at houtside
    obtain ⟨-, -, hrow, hcolumn, hrow', hcolumn'⟩ := houtside
    obtain ⟨hr, hr'⟩ := Etad.floor_in_count hrow hrow'
    obtain ⟨hc, hc'⟩ := Etad.floor_in_count hcolumn hcolumn'
    obtain ⟨c00, h00⟩ := h.exists_value hr (by omega) hc (by omega)
    obtain ⟨c01, h01⟩ := h.exists_value hr (by omega) (Int.add_nonneg hc Int.one_nonneg) hc'
    obtain ⟨c10, h10⟩ := h.exists_value (Int.add_nonneg hr Int.one_nonneg) hr' hc (by omega)
    obtain ⟨c11, h11⟩ := h.exists_value (Int.add_nonneg hr Int.one_nonneg) hr'
      (Int.add_nonneg hc Int.one_nonneg) hc'
    rw [← Int.add_assoc] at h01 h11
    simp [h00, h01, h10, h11]

theorem exists_etadCorrection (reference secondary : EtadBurstDescriptor T) (x y : Int)
    (mapped : T × T) :
    ∃ value, computeEtadCorrection reference secondary x y mapped = .ok value := by
  unfold computeEtadCorrection
  dsimp only
  split_ifs with hinvalid houtside
  · exact ⟨none, rfl⟩
  · exact ⟨none, rfl⟩
  · have hreference (grid : GridView T) (hgrid : Sized grid) :=
      hgrid.exists_sample reference.etadGeometry
        (reference.slcGeometry.firstLineTime + ((y : T) - reference.firstOutputLine) *
          reference.slcGeometry.azimuthTimeInterval)
        (reference.slcGeometry.firstRangeTime +
          (x : T) * reference.slcGeometry.rangeTimeInterval)
    have hsecondary (grid : GridView T) (hgrid : Sized grid) :=
      hgrid.exists_sample secondary.etadGeometry
        (secondary.slcGeometry.firstLineTime + (mapped.2 - secondary.firstOutputLine) *
          secondary.slcGeometry.azimuthTimeInterval)
        (secondary.slcGeometry.firstRangeTime +
          mapped.1 * secondary.slcGeometry.rangeTimeInterval)
    obtain ⟨phase, hphase⟩ := hreference _ reference.phase_sized
    obtain ⟨height, hheight⟩ := hreference _ reference.height_sized
    obtain ⟨phase', hphase'⟩ := hsecondary _ secondary.phase_sized
    obtain ⟨height', hheight'⟩ := hsecondary _ secondary.height_sized
    obtain ⟨gradient', hgradient'⟩ := hsecondary _ secondary.gradient_sized
    simp [hphase, hheight, hphase', hheight', hgradient']

/-- A position outside the secondary burst has no correction. -/
theorem etadCorrection_outside {reference secondary : EtadBurstDescriptor T} {x y : Int}
    {mapped : T × T}
    (h : mapped.2 - secondary.firstOutputLine < 0 ∨
      mapped.2 - secondary.firstOutputLine ≥ secondary.slcGeometry.lines ∨ mapped.1 < 0 ∨
      mapped.1 ≥ secondary.slcGeometry.samples) :
    computeEtadCorrection reference secondary x y mapped = .ok none := by
  unfold computeEtadCorrection
  dsimp only
  split_ifs with hinvalid
  · rfl
  · rfl

end Alus.Backgeocoding
