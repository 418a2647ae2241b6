import Mathlib.Tactic.LinearCombination
import Alus.Etad.SampleGrid

/-!
# Interpolated layers and phases

`SampleGrid` is the bilinear interpolation between the four neighbours of a position, and the
range phase is an affine function of the three delays. The weights of the neighbours add up to one,
so that it makes no difference whether the delays are interpolated or the grid that `ComputePhase`
makes of them.

Delays, times and phases are exact numbers; NaN is `none`. A `Grid` has the fields of its view.
-/

namespace Alus.Etad

open Alus.Lib

/-! ## Checks -/

section Checks

variable {T : Type}

def checkGrid (grid : GridView T) : Outcome Unit := do
  let size ← gridSize grid.rows grid.columns
  Outcome.require ((grid.values.length : Int) = size)

def checkSameGrid (left right : GridView T) : Outcome Unit := do
  checkGrid left
  checkGrid right
  Outcome.require (left.rows = right.rows ∧ left.columns = right.columns)

end Checks

/-! ## The phase -/

section Phase

variable {T : Type} [Field T]

/-- `TWO_PI`. -/
def twoPi : T := 6283185307179586476925286766559 / 10 ^ 30

def delayToPhase (delay frequencyHz : T) : T := -twoPi * frequencyHz * delay

def rangePhase (troposphere geodetic ionosphere : Option T) (calibrationSeconds frequencyHz : T) :
    Option T := do
  let troposphere ← troposphere
  let geodetic ← geodetic
  let ionosphere ← ionosphere
  return delayToPhase (troposphere + geodetic - ionosphere + calibrationSeconds) frequencyHz

/-- The loop of `ComputePhase` over the values. -/
def phaseValues (troposphere geodetic ionosphere : GridView T)
    (frequencyHz calibrationSeconds : T) : Outcome (List (Option T)) :=
  Outcome.collect ((List.range troposphere.values.length).map fun (i : Nat) => do
    let t ← vectorIndex troposphere.values i
    let g ← vectorIndex geodetic.values i
    let d ← vectorIndex ionosphere.values i
    return rangePhase t g d calibrationSeconds frequencyHz)

variable [LinearOrder T]

/-- `ComputePhase`. -/
def computePhase (troposphere geodetic ionosphere : GridView T)
    (frequencyHz calibrationSeconds : T) : Outcome (GridView T) := do
  checkSameGrid troposphere geodetic
  checkSameGrid troposphere ionosphere
  Outcome.require (frequencyHz > 0)
  let values ← phaseValues troposphere geodetic ionosphere frequencyHz calibrationSeconds
  return ⟨values, troposphere.rows, troposphere.columns⟩

/-- `Interpolate`. -/
def interpolate [FloorRing T] (grid : GridView T) (burst : Burst T) (azimuthTime rangeTime : T) :
    Outcome (Option T) := do
  checkGrid grid
  Outcome.require (grid.rows = burst.rows ∧ grid.columns = burst.columns)
  Outcome.require (burst.samplingAzimuth > 0 ∧ burst.samplingRange > 0)
  sampleGrid grid burst.geometry azimuthTime rangeTime

end Phase

/-! ## The four neighbours -/

section Neighbours

variable {T : Type}

/-- The value at a row and a column. -/
def GridView.node (grid : GridView T) (row column : Int) : Option T :=
  (grid.values[(row * grid.columns + column).toNat]?).join

/-- The buffer holds the rows and columns. -/
structure GridView.Sized (grid : GridView T) : Prop where
  rows : 0 ≤ grid.rows
  columns : 0 ≤ grid.columns
  length : (grid.values.length : Int) = grid.rows * grid.columns

theorem GridView.Sized.vectorIndex_eq {grid : GridView T} (hgrid : grid.Sized) (row column : Int)
    (hrow : 0 ≤ row) (hrow_lt : row < grid.rows) (hcolumn : 0 ≤ column)
    (hcolumn_lt : column < grid.columns) :
    vectorIndex grid.values (row * grid.columns + column) = .ok (grid.node row column) := by
  have hfirst : 0 ≤ row * grid.columns := Int.mul_nonneg hrow (by omega)
  have hlast : (row + 1) * grid.columns ≤ grid.rows * grid.columns :=
    Int.mul_le_mul_of_nonneg_right (by omega) (by omega)
  rw [Int.add_mul, Int.one_mul, ← hgrid.length] at hlast
  obtain ⟨value, hread, hget⟩ := exists_vectorIndex (v := grid.values)
    (i := row * grid.columns + column) (by omega) (by omega)
  rw [hread, GridView.node, hget]
  rfl

variable [Field T] [LinearOrder T]

structure GridGeometry.PositiveSteps (geometry : GridGeometry T) : Prop where
  azimuth : 0 < geometry.azimuthStep
  range : 0 < geometry.rangeStep

/-- The position is not before the first row and column, and before the last ones. -/
def GridView.InDomain (grid : GridView T) (geometry : GridGeometry T) (azimuthTime rangeTime : T) :
    Prop :=
  (geometry.azimuthOrigin ≤ azimuthTime ∧
    azimuthTime < geometry.azimuthOrigin + ((grid.rows - 1 : Int) : T) * geometry.azimuthStep) ∧
  (geometry.rangeOrigin ≤ rangeTime ∧
    rangeTime < geometry.rangeOrigin + ((grid.columns - 1 : Int) : T) * geometry.rangeStep)

/-- Grids of one size have one domain. -/
theorem GridView.inDomain_congr {grid grid' : GridView T} {geometry : GridGeometry T}
    {azimuthTime rangeTime : T} (hrows : grid'.rows = grid.rows)
    (hcolumns : grid'.columns = grid.columns) :
    grid'.InDomain geometry azimuthTime rangeTime ↔
      grid.InDomain geometry azimuthTime rangeTime := by
  rw [InDomain, InDomain, hrows, hcolumns]

variable [FloorRing T]

namespace GridGeometry

variable (geometry : GridGeometry T)

/-- The row at or before a time, and the column. -/
def row (azimuthTime : T) : Int :=
  ⌊(azimuthTime - geometry.azimuthOrigin) / geometry.azimuthStep⌋

def column (rangeTime : T) : Int := ⌊(rangeTime - geometry.rangeOrigin) / geometry.rangeStep⌋

/-- How far the time is from its row to the next, and from its column. -/
def rowFraction (azimuthTime : T) : T :=
  Int.fract ((azimuthTime - geometry.azimuthOrigin) / geometry.azimuthStep)

def columnFraction (rangeTime : T) : T :=
  Int.fract ((rangeTime - geometry.rangeOrigin) / geometry.rangeStep)

end GridGeometry

/-- The values around a position. -/
def GridView.neighbours (grid : GridView T) (geometry : GridGeometry T)
    (azimuthTime rangeTime : T) : List (Option T) :=
  let r := geometry.row azimuthTime
  let c := geometry.column rangeTime
  [grid.node r c, grid.node r (c + 1), grid.node (r + 1) c, grid.node (r + 1) (c + 1)]

variable [IsStrictOrderedRing T] {grid : GridView T} {geometry : GridGeometry T}
  {azimuthTime rangeTime : T}

omit [FloorRing T] in
theorem axis_in_domain {time origin step : T} (hstep : 0 < step) {count : Int} :
    (origin ≤ time ∧ time < origin + ((count - 1 : Int) : T) * step) ↔
      0 ≤ (time - origin) / step ∧ (time - origin) / step < ((count - 1 : Int) : T) := by
  rw [coordinate_lt_iff hstep, le_div_iff₀ hstep, zero_mul, sub_nonneg]

/-- Outside the domain nothing is read. -/
theorem sampleGrid_outside (hsteps : geometry.PositiveSteps)
    (hout : ¬ grid.InDomain geometry azimuthTime rangeTime) :
    sampleGrid grid geometry azimuthTime rangeTime = .ok none := by
  rw [GridView.InDomain, axis_in_domain hsteps.azimuth, axis_in_domain hsteps.range] at hout
  refine if_pos ?_
  by_contra hguard
  rw [not_or, not_or, not_or, not_or, not_or, not_lt, not_lt, not_lt, not_lt, not_le,
    not_le] at hguard
  obtain ⟨-, -, hrow, hcolumn, hrow_lt, hcolumn_lt⟩ := hguard
  exact hout ⟨⟨hrow, hrow_lt⟩, hcolumn, hcolumn_lt⟩

/-- The row of a time in the domain is not the last one, nor is its column. -/
theorem cell_in_grid (hsteps : geometry.PositiveSteps)
    (hin : grid.InDomain geometry azimuthTime rangeTime) :
    (0 ≤ geometry.row azimuthTime ∧ geometry.row azimuthTime + 1 < grid.rows) ∧
      0 ≤ geometry.column rangeTime ∧ geometry.column rangeTime + 1 < grid.columns := by
  rw [GridView.InDomain, axis_in_domain hsteps.azimuth, axis_in_domain hsteps.range] at hin
  obtain ⟨⟨hrow, hrow_lt⟩, hcolumn, hcolumn_lt⟩ := hin
  exact ⟨floor_in_count hrow hrow_lt, floor_in_count hcolumn hcolumn_lt⟩

/-- In the domain the four neighbours are read and interpolated. -/
theorem sampleGrid_inside (hgrid : grid.Sized) (hsteps : geometry.PositiveSteps)
    (hin : grid.InDomain geometry azimuthTime rangeTime) :
    sampleGrid grid geometry azimuthTime rangeTime =
      .ok (interpolateSamples (geometry.rowFraction azimuthTime) (geometry.columnFraction rangeTime)
        (grid.node (geometry.row azimuthTime) (geometry.column rangeTime))
        (grid.node (geometry.row azimuthTime) (geometry.column rangeTime + 1))
        (grid.node (geometry.row azimuthTime + 1) (geometry.column rangeTime))
        (grid.node (geometry.row azimuthTime + 1) (geometry.column rangeTime + 1))) := by
  obtain ⟨⟨hr, hr_lt⟩, hc, hc_lt⟩ := cell_in_grid hsteps hin
  rw [GridView.InDomain, axis_in_domain hsteps.azimuth, axis_in_domain hsteps.range] at hin
  obtain ⟨⟨hrow, hrow_lt⟩, hcolumn, hcolumn_lt⟩ := hin
  refine (if_neg ?_).trans ?_
  · rintro (h | h | h | h | h | h)
    · omega
    · omega
    · exact absurd h (not_lt.mpr hrow)
    · exact absurd h (not_lt.mpr hcolumn)
    · exact absurd h (not_le.mpr hrow_lt)
    · exact absurd h (not_le.mpr hcolumn_lt)
  · have h00 := hgrid.vectorIndex_eq _ _ hr (by omega) hc (by omega)
    have h01 := hgrid.vectorIndex_eq _ (geometry.column rangeTime + 1) hr (by omega) (by omega)
      (by omega)
    have h10 := hgrid.vectorIndex_eq (geometry.row azimuthTime + 1) _ (by omega) (by omega) hc
      (by omega)
    have h11 := hgrid.vectorIndex_eq (geometry.row azimuthTime + 1) (geometry.column rangeTime + 1)
      (by omega) (by omega) (by omega) (by omega)
    rw [← Int.add_assoc] at h01 h11
    simp only [GridGeometry.row, GridGeometry.column] at h00 h01 h10 h11
    rw [h00, h01, h10, h11]
    rfl

end Neighbours

/-! ## The interpolation -/

section Interpolation

variable {T : Type} [Field T]

theorem interpolateSamples_eq_none {dr dc : T} {c00 c01 c10 c11 : Option T} :
    interpolateSamples dr dc c00 c01 c10 c11 = none ↔
      c00 = none ∨ c01 = none ∨ c10 = none ∨ c11 = none := by
  cases c00 <;> cases c01 <;> cases c10 <;> cases c11 <;> simp [interpolateSamples]

theorem rangePhase_eq_none {t g d : Option T} {calibrationSeconds frequencyHz : T} :
    rangePhase t g d calibrationSeconds frequencyHz = none ↔
      t = none ∨ g = none ∨ d = none := by
  cases t <;> cases g <;> cases d <;> simp [rangePhase]

/-- At a node the other three neighbours have no weight. -/
theorem interpolateSamples_zero {c00 c01 c10 c11 : Option T} {value : T}
    (h : interpolateSamples 0 0 c00 c01 c10 c11 = some value) : c00 = some value := by
  cases c00 <;> cases c01 <;> cases c10 <;> cases c11 <;> simp_all [interpolateSamples]

/-- The phase of interpolated delays is the interpolated phase. -/
theorem interpolateSamples_rangePhase (dr dc calibrationSeconds frequencyHz : T)
    (t00 t01 t10 t11 g00 g01 g10 g11 d00 d01 d10 d11 : Option T) :
    interpolateSamples dr dc (rangePhase t00 g00 d00 calibrationSeconds frequencyHz)
        (rangePhase t01 g01 d01 calibrationSeconds frequencyHz)
        (rangePhase t10 g10 d10 calibrationSeconds frequencyHz)
        (rangePhase t11 g11 d11 calibrationSeconds frequencyHz) =
      rangePhase (interpolateSamples dr dc t00 t01 t10 t11)
        (interpolateSamples dr dc g00 g01 g10 g11) (interpolateSamples dr dc d00 d01 d10 d11)
        calibrationSeconds frequencyHz := by
  by_cases hnone : interpolateSamples dr dc
      (rangePhase t00 g00 d00 calibrationSeconds frequencyHz)
      (rangePhase t01 g01 d01 calibrationSeconds frequencyHz)
      (rangePhase t10 g10 d10 calibrationSeconds frequencyHz)
      (rangePhase t11 g11 d11 calibrationSeconds frequencyHz) = none
  -- one invalid delay makes both sides invalid
  · rw [hnone, eq_comm]
    simp only [interpolateSamples_eq_none, rangePhase_eq_none] at hnone ⊢
    tauto
  · simp only [interpolateSamples_eq_none, rangePhase_eq_none, not_or, ← ne_eq,
      Option.ne_none_iff_exists'] at hnone
    obtain ⟨⟨⟨a00, rfl⟩, ⟨b00, rfl⟩, e00, rfl⟩, ⟨⟨a01, rfl⟩, ⟨b01, rfl⟩, e01, rfl⟩,
      ⟨⟨a10, rfl⟩, ⟨b10, rfl⟩, e10, rfl⟩, ⟨a11, rfl⟩, ⟨b11, rfl⟩, e11, rfl⟩ := hnone
    simp only [rangePhase, interpolateSamples, delayToPhase, Option.bind_eq_bind, Option.bind_some,
      Option.pure_def, Option.some.injEq]
    ring

variable [LinearOrder T] [IsStrictOrderedRing T]

/-- A point between two numbers lies between their bounds. -/
theorem between_mix {t a b low high : T} (h0 : 0 ≤ t) (h1 : t ≤ 1) (ha : low ≤ a ∧ a ≤ high)
    (hb : low ≤ b ∧ b ≤ high) :
    low ≤ (1 - t) * a + t * b ∧ (1 - t) * a + t * b ≤ high := by
  have ht : 0 ≤ 1 - t := sub_nonneg.mpr h1
  constructor
  · linarith [mul_le_mul_of_nonneg_left ha.1 ht, mul_le_mul_of_nonneg_left hb.1 h0]
  · linarith [mul_le_mul_of_nonneg_left ha.2 ht, mul_le_mul_of_nonneg_left hb.2 h0]

/-- The interpolation lies between any bounds of the four samples. -/
theorem interpolateSamples_between {dr dc low high value : T} {c00 c01 c10 c11 : Option T}
    (hr : 0 ≤ dr ∧ dr ≤ 1) (hc : 0 ≤ dc ∧ dc ≤ 1)
    (hvalue : interpolateSamples dr dc c00 c01 c10 c11 = some value)
    (hbounds : ∀ c, some c ∈ [c00, c01, c10, c11] → low ≤ c ∧ c ≤ high) :
    low ≤ value ∧ value ≤ high := by
  have hvalid : interpolateSamples dr dc c00 c01 c10 c11 ≠ none := by
    rw [hvalue]
    exact Option.some_ne_none value
  simp only [ne_eq, interpolateSamples_eq_none, not_or] at hvalid
  simp only [← ne_eq, Option.ne_none_iff_exists'] at hvalid
  obtain ⟨⟨a00, rfl⟩, ⟨a01, rfl⟩, ⟨a10, rfl⟩, a11, rfl⟩ := hvalid
  rw [interpolateSamples, Option.some.injEq] at hvalue
  rw [← hvalue]
  exact between_mix hr.1 hr.2
    (between_mix hc.1 hc.2 (hbounds a00 (by simp)) (hbounds a01 (by simp)))
    (between_mix hc.1 hc.2 (hbounds a10 (by simp)) (hbounds a11 (by simp)))

end Interpolation

/-! ## The phase grid -/

section PhaseGrid

variable {T : Type}

theorem checkGrid_eq_ok {grid : GridView T} (h : checkGrid grid = .ok ⟨⟩) : grid.Sized := by
  rw [checkGrid, Outcome.bind_eq_ok] at h
  obtain ⟨size, hsize, hlength⟩ := h
  obtain ⟨hrows, hcolumns⟩ := gridSize_eq_ok hsize
  rw [gridSize, Outcome.bind_eq_ok] at hsize
  obtain ⟨_, _, hproduct⟩ := hsize
  rw [Outcome.require_eq_ok] at hlength
  exact ⟨by omega, by omega, hlength.trans (Outcome.ok.inj hproduct).symm⟩

theorem checkSameGrid_eq_ok {left right : GridView T} (h : checkSameGrid left right = .ok ⟨⟩) :
    left.Sized ∧ right.Sized ∧ left.rows = right.rows ∧ left.columns = right.columns := by
  simp only [checkSameGrid, Outcome.bind_eq_ok, Outcome.require_eq_ok] at h
  obtain ⟨_, hleft, _, hright, hsame⟩ := h
  exact ⟨checkGrid_eq_ok hleft, checkGrid_eq_ok hright, hsame⟩

variable [Field T]

theorem phaseValues_eq_ok {troposphere geodetic ionosphere : GridView T} {f cal : T}
    {values : List (Option T)}
    (h : phaseValues troposphere geodetic ionosphere f cal = .ok values) :
    values.length = troposphere.values.length ∧ ∀ i < troposphere.values.length,
      ∃ t g d, vectorIndex troposphere.values i = .ok t ∧ vectorIndex geodetic.values i = .ok g ∧
        vectorIndex ionosphere.values i = .ok d ∧ values[i]? = some (rangePhase t g d cal f) := by
  rw [phaseValues, Outcome.collect_eq_ok] at h
  have hlength := congrArg List.length h
  rw [List.length_map, List.length_map, List.length_range] at hlength
  refine ⟨hlength.symm, fun i hi => ?_⟩
  have hread := congrArg (·[i]?) h
  simp only [List.getElem?_map, List.getElem?_range hi, Option.map_some] at hread
  obtain ⟨value, hvalue, hok⟩ := Option.map_eq_some_iff.mp hread.symm
  have hbody := hok.symm
  simp only [Outcome.bind_eq_ok, Outcome.pure_eq, Outcome.ok.injEq] at hbody
  obtain ⟨t, ht, g, hg, d, hd, rfl⟩ := hbody
  exact ⟨t, g, d, ht, hg, hd, hvalue⟩

variable [LinearOrder T] {troposphere geodetic ionosphere phase : GridView T}
  {frequencyHz calibrationSeconds : T}

/-- The phase grid has the size of the layers, and at each row and column the phase of theirs. -/
structure PhaseOf (troposphere geodetic ionosphere phase : GridView T)
    (frequencyHz calibrationSeconds : T) : Prop where
  sized : troposphere.Sized ∧ geodetic.Sized ∧ ionosphere.Sized ∧ phase.Sized
  rows : geodetic.rows = troposphere.rows ∧ ionosphere.rows = troposphere.rows ∧
    phase.rows = troposphere.rows
  columns : geodetic.columns = troposphere.columns ∧ ionosphere.columns = troposphere.columns ∧
    phase.columns = troposphere.columns
  node : ∀ row column, 0 ≤ row → row < troposphere.rows → 0 ≤ column →
    column < troposphere.columns → phase.node row column =
      rangePhase (troposphere.node row column) (geodetic.node row column)
        (ionosphere.node row column) calibrationSeconds frequencyHz

theorem computePhase_eq_ok
    (h : computePhase troposphere geodetic ionosphere frequencyHz calibrationSeconds = .ok phase) :
    PhaseOf troposphere geodetic ionosphere phase frequencyHz calibrationSeconds := by
  simp only [computePhase, Outcome.bind_eq_ok, Outcome.require_eq_ok, Outcome.pure_eq,
    Outcome.ok.injEq] at h
  obtain ⟨_, hgeodetic, _, hionosphere, _, _, values, hvalues, rfl⟩ := h
  obtain ⟨htsized, hgsized, hgrows, hgcolumns⟩ := checkSameGrid_eq_ok hgeodetic
  obtain ⟨_, hdsized, hdrows, hdcolumns⟩ := checkSameGrid_eq_ok hionosphere
  obtain ⟨hlength, hread⟩ := phaseValues_eq_ok hvalues
  refine ⟨⟨htsized, hgsized, hdsized, htsized.rows, htsized.columns, ?_⟩,
    ⟨hgrows.symm, hdrows.symm, rfl⟩, ⟨hgcolumns.symm, hdcolumns.symm, rfl⟩,
    fun row column hrow hrow_lt hcolumn hcolumn_lt => ?_⟩
  · rw [hlength]
    exact htsized.length
  · have hfirst : 0 ≤ row * troposphere.columns := Int.mul_nonneg hrow (by omega)
    have hlast : (row + 1) * troposphere.columns ≤ troposphere.rows * troposphere.columns :=
      Int.mul_le_mul_of_nonneg_right (by omega) (by omega)
    rw [Int.add_mul, Int.one_mul, ← htsized.length] at hlast
    obtain ⟨i, hi⟩ := Int.eq_ofNat_of_zero_le
      (show 0 ≤ row * troposphere.columns + column by omega)
    obtain ⟨t, g, d, ht, hg, hd, hphase⟩ := hread i (by omega)
    have ht' := htsized.vectorIndex_eq _ _ hrow hrow_lt hcolumn hcolumn_lt
    have hg' := hgsized.vectorIndex_eq _ _ hrow (by omega) hcolumn (by omega)
    have hd' := hdsized.vectorIndex_eq _ _ hrow (by omega) hcolumn (by omega)
    rw [← hgcolumns] at hg'
    rw [← hdcolumns] at hd'
    rw [hi] at ht' hg' hd'
    rw [← Outcome.ok.inj (ht.symm.trans ht'), ← Outcome.ok.inj (hg.symm.trans hg'),
      ← Outcome.ok.inj (hd.symm.trans hd')]
    show (values[(row * troposphere.columns + column).toNat]?).join = _
    rw [hi, Int.toNat_natCast, hphase, Option.join_some]

variable [FloorRing T] [IsStrictOrderedRing T] {geometry : GridGeometry T}

/-- **Sampling commutes with the phase conversion.** -/
theorem PhaseOf.sampleGrid_eq (hsteps : geometry.PositiveSteps)
    (h : PhaseOf troposphere geodetic ionosphere phase frequencyHz calibrationSeconds)
    (azimuthTime rangeTime : T) :
    ∃ t g d, sampleGrid troposphere geometry azimuthTime rangeTime = .ok t ∧
      sampleGrid geodetic geometry azimuthTime rangeTime = .ok g ∧
      sampleGrid ionosphere geometry azimuthTime rangeTime = .ok d ∧
      sampleGrid phase geometry azimuthTime rangeTime =
        .ok (rangePhase t g d calibrationSeconds frequencyHz) := by
  obtain ⟨htsized, hgsized, hdsized, hpsized⟩ := h.sized
  by_cases hin : troposphere.InDomain geometry azimuthTime rangeTime
  · obtain ⟨⟨hr, hr_lt⟩, hc, hc_lt⟩ := cell_in_grid hsteps hin
    refine ⟨_, _, _, sampleGrid_inside htsized hsteps hin,
      sampleGrid_inside hgsized hsteps ((GridView.inDomain_congr h.rows.1 h.columns.1).mpr hin),
      sampleGrid_inside hdsized hsteps
        ((GridView.inDomain_congr h.rows.2.1 h.columns.2.1).mpr hin), ?_⟩
    rw [sampleGrid_inside hpsized hsteps
        ((GridView.inDomain_congr h.rows.2.2 h.columns.2.2).mpr hin),
      h.node _ _ hr (by omega) hc (by omega), h.node _ _ hr (by omega) (by omega) (by omega),
      h.node _ _ (by omega) (by omega) hc (by omega),
      h.node _ _ (by omega) (by omega) (by omega) (by omega), interpolateSamples_rangePhase]
  · exact ⟨none, none, none, sampleGrid_outside hsteps hin,
      sampleGrid_outside hsteps ((GridView.inDomain_congr h.rows.1 h.columns.1).not.mpr hin),
      sampleGrid_outside hsteps
        ((GridView.inDomain_congr h.rows.2.1 h.columns.2.1).not.mpr hin),
      sampleGrid_outside hsteps
        ((GridView.inDomain_congr h.rows.2.2 h.columns.2.2).not.mpr hin)⟩

/-! ## Sampling -/

/-- What a grid gives at every position. -/
structure BilinearSampling (grid : GridView T) (geometry : GridGeometry T) : Prop where
  /-- No read is outside the buffer. -/
  defined : ∀ azimuthTime rangeTime,
    ∃ result, sampleGrid grid geometry azimuthTime rangeTime = .ok result
  inside : ∀ azimuthTime rangeTime, grid.InDomain geometry azimuthTime rangeTime →
    (0 ≤ geometry.row azimuthTime ∧ geometry.row azimuthTime + 1 < grid.rows) ∧
      0 ≤ geometry.column rangeTime ∧ geometry.column rangeTime + 1 < grid.columns
  /-- Grids of one size with the same neighbours give the same. -/
  reads : ∀ azimuthTime rangeTime, ∀ grid' : GridView T, grid'.Sized → grid'.rows = grid.rows →
    grid'.columns = grid.columns → (grid.InDomain geometry azimuthTime rangeTime →
      grid'.neighbours geometry azimuthTime rangeTime =
        grid.neighbours geometry azimuthTime rangeTime) →
    sampleGrid grid' geometry azimuthTime rangeTime =
      sampleGrid grid geometry azimuthTime rangeTime
  invalid : ∀ azimuthTime rangeTime,
    sampleGrid grid geometry azimuthTime rangeTime = .ok none ↔
      ¬ grid.InDomain geometry azimuthTime rangeTime ∨
        none ∈ grid.neighbours geometry azimuthTime rangeTime
  node : ∀ row column : Int, 0 ≤ row → row + 1 < grid.rows → 0 ≤ column →
    column + 1 < grid.columns → ∀ value,
    sampleGrid grid geometry (geometry.azimuthOrigin + row * geometry.azimuthStep)
        (geometry.rangeOrigin + column * geometry.rangeStep) = .ok (some value) →
      grid.node row column = some value
  between : ∀ azimuthTime rangeTime value,
    sampleGrid grid geometry azimuthTime rangeTime = .ok (some value) → ∀ low high,
    (∀ c, some c ∈ grid.neighbours geometry azimuthTime rangeTime → low ≤ c ∧ c ≤ high) →
      low ≤ value ∧ value ≤ high

variable {grid : GridView T}

theorem fract_bounds (x : T) : 0 ≤ Int.fract x ∧ Int.fract x ≤ 1 :=
  ⟨Int.fract_nonneg x, (Int.fract_lt_one x).le⟩

theorem bilinearSampling (hgrid : grid.Sized) (hsteps : geometry.PositiveSteps) :
    BilinearSampling grid geometry where
  defined azimuthTime rangeTime := by
    by_cases hin : grid.InDomain geometry azimuthTime rangeTime
    · exact ⟨_, sampleGrid_inside hgrid hsteps hin⟩
    · exact ⟨none, sampleGrid_outside hsteps hin⟩
  inside azimuthTime rangeTime := cell_in_grid hsteps
  reads azimuthTime rangeTime grid' hgrid' hrows hcolumns hneighbours := by
    by_cases hin : grid.InDomain geometry azimuthTime rangeTime
    · have hin' : grid'.InDomain geometry azimuthTime rangeTime :=
        (GridView.inDomain_congr hrows hcolumns).mpr hin
      -- the result depends on the four neighbours only
      have hsame := hneighbours hin
      simp only [GridView.neighbours, List.cons.injEq, and_true] at hsame
      obtain ⟨h00, h01, h10, h11⟩ := hsame
      rw [sampleGrid_inside hgrid hsteps hin, sampleGrid_inside hgrid' hsteps hin', h00, h01, h10,
        h11]
    · have hin' : ¬ grid'.InDomain geometry azimuthTime rangeTime :=
        (GridView.inDomain_congr hrows hcolumns).not.mpr hin
      rw [sampleGrid_outside hsteps hin, sampleGrid_outside hsteps hin']
  invalid azimuthTime rangeTime := by
    by_cases hin : grid.InDomain geometry azimuthTime rangeTime
    · rw [sampleGrid_inside hgrid hsteps hin, Outcome.ok.injEq, interpolateSamples_eq_none,
        or_iff_right (not_not.mpr hin)]
      simp only [GridView.neighbours, List.mem_cons, List.not_mem_nil, or_false, eq_comm]
    · exact iff_of_true (sampleGrid_outside hsteps hin) (.inl hin)
  node row column hrow hrow_lt hcolumn hcolumn_lt value hvalue := by
    have hrowEq : (geometry.azimuthOrigin + row * geometry.azimuthStep - geometry.azimuthOrigin) /
        geometry.azimuthStep = row := by
      rw [add_sub_cancel_left, mul_div_cancel_right₀ _ hsteps.azimuth.ne']
    have hcolumnEq : (geometry.rangeOrigin + column * geometry.rangeStep - geometry.rangeOrigin) /
        geometry.rangeStep = column := by
      rw [add_sub_cancel_left, mul_div_cancel_right₀ _ hsteps.range.ne']
    -- the position of a node is inside, at a fraction of zero
    have hin : grid.InDomain geometry (geometry.azimuthOrigin + row * geometry.azimuthStep)
        (geometry.rangeOrigin + column * geometry.rangeStep) := by
      rw [GridView.InDomain, axis_in_domain hsteps.azimuth, axis_in_domain hsteps.range, hrowEq,
        hcolumnEq]
      exact ⟨⟨by exact_mod_cast hrow, by exact_mod_cast (show row < grid.rows - 1 by omega)⟩,
        by exact_mod_cast hcolumn, by exact_mod_cast (show column < grid.columns - 1 by omega)⟩
    rw [sampleGrid_inside hgrid hsteps hin, Outcome.ok.injEq, GridGeometry.rowFraction,
      GridGeometry.columnFraction, GridGeometry.row, GridGeometry.column, hrowEq, hcolumnEq,
      Int.fract_intCast, Int.fract_intCast, Int.floor_intCast, Int.floor_intCast] at hvalue
    exact interpolateSamples_zero hvalue
  between azimuthTime rangeTime value hvalue low high hbounds := by
    by_cases hin : grid.InDomain geometry azimuthTime rangeTime
    · rw [sampleGrid_inside hgrid hsteps hin, Outcome.ok.injEq] at hvalue
      exact interpolateSamples_between (fract_bounds _)
        (fract_bounds _) hvalue hbounds
    · rw [sampleGrid_outside hsteps hin] at hvalue
      cases hvalue

/-- `Interpolate` checks the grid and the steps before it samples. -/
theorem bilinearSampling_of_interpolate {burst : Burst T} {azimuthTime rangeTime : T}
    {value : Option T} (h : interpolate grid burst azimuthTime rangeTime = .ok value) :
    BilinearSampling grid burst.geometry ∧
      sampleGrid grid burst.geometry azimuthTime rangeTime = .ok value := by
  simp only [interpolate, Outcome.bind_eq_ok, Outcome.require_eq_ok] at h
  obtain ⟨_, hgrid, _, -, _, ⟨hazimuth, hrange⟩, hsample⟩ := h
  exact ⟨bilinearSampling (checkGrid_eq_ok hgrid) ⟨hazimuth, hrange⟩, hsample⟩

end PhaseGrid

section Example

deriving instance DecidableEq for GridView

/-- Two rows and three columns, a second apart, with one invalid value. -/
def smallLayer : GridView ℚ := ⟨[some 1, some 2, none, some 3, some 5, some 8], 2, 3⟩

def smallPhase : GridView ℚ :=
  ⟨smallLayer.values.map fun v => rangePhase v v v (1 / 2) 3, 2, 3⟩

end Example

end Alus.Etad
