import Mathlib.Algebra.Order.Field.Basic
import Mathlib.Tactic.Ring
import Mathlib.Tactic.FieldSimp
import Alus.Lib.IntervalSearch
import Alus.Lib.Loop

/-!
# The geolocation grid of a sub-swath

`ComputeIndex` looks up the cell of the geolocation grid for an azimuth and a slant range time, on
the host (`sentinel1_utils.cc`) in the arrays of `SubSwathInfo`, and on the device
(`sentinel1_utils.cuh`) in flat copies of them. The slant range times are those of the first line,
the azimuth times those of each line between the two columns that were found. The arithmetic is
exact.
-/

namespace Alus.S1tbx

open Alus.Lib

/-- The arrays are allocated in one piece, whose size is an `int`. -/
structure GeoGrid (F : Type) where
  numOfGeoLines : Nat
  numOfGeoPointsPerLine : Nat
  slantRangeTime : Nat → Nat → F
  azimuthTime : Nat → Nat → F
  latitude : Nat → Nat → F
  longitude : Nat → Nat → F
  size_lt : numOfGeoLines * numOfGeoPointsPerLine < 2147483648

/-- `Sentinel1Index`. -/
structure Sentinel1Index (F : Type) where
  i0 : Int
  i1 : Int
  j0 : Int
  j1 : Int
  muX : F
  muY : F
  deriving DecidableEq, Repr

/-! ## The arrays -/

namespace GeoGrid

variable {F : Type} (g : GeoGrid F)

/-- `array[i][j]`. -/
def hostAt (array : Nat → Nat → F) (i j : Int) : Outcome F :=
  if (0 ≤ i ∧ i < g.numOfGeoLines) ∧ 0 ≤ j ∧ j < g.numOfGeoPointsPerLine then
    .ok (array i.toNat j.toNat)
  else .undefined

/-- The copy of an array on the device. -/
def copyToDevice (array : Nat → Nat → F) (k : Nat) : F :=
  array (k / g.numOfGeoPointsPerLine) (k % g.numOfGeoPointsPerLine)

/-- `array[i * num_of_geo_points_per_line + j]`. -/
def deviceAt (array : Nat → F) (i j : Int) : Outcome F := do
  let auxIndex ← int32 (i * g.numOfGeoPointsPerLine)
  let index ← int32 (auxIndex + j)
  if 0 ≤ index ∧ index < g.numOfGeoLines * g.numOfGeoPointsPerLine then .ok (array index.toNat)
  else .undefined

end GeoGrid

/-! ## The lookup -/

section Lookup

variable {F : Type} [Field F] [LinearOrder F]

/-- A quotient of two numbers. A division by zero, which leaves none, is undefined. -/
def quotient (a b : F) : Outcome F := if b = 0 then .undefined else .ok (a / b)

/-- The indices `j0` and `j1`, with the slant range times of the first line. -/
def rangeIndices (points : Nat) (slantRangeTimeAt : Int → Outcome F) (slantRangeTime : F) :
    Outcome (Int × Int) := do
  -- beyond either end the outermost two points are taken
  let front ← slantRangeTimeAt 0
  if slantRangeTime < front then return (0, 1)
  else
    let back ← slantRangeTimeAt ((points : Int) - 1)
    if slantRangeTime > back then return ((points : Int) - 2, (points : Int) - 1)
    else
      let found ← (List.range (points - 1)).findM? fun (j : Nat) => do
        let lower ← slantRangeTimeAt j
        if lower ≤ slantRangeTime then do
          let upper ← slantRangeTimeAt ((j : Int) + 1)
          return decide (upper > slantRangeTime)
        else return false
      -- the indices are -1 before the loop
      return match found with
        | some j => ((j : Int), (j : Int) + 1)
        | none => (-1, -1)

/-- The azimuth time of a line between the two columns. -/
def lineAzimuthTime (azimuthTimeAt : Int → Int → Outcome F) (j0 j1 : Int) (muX : F) (i : Int) :
    Outcome F := do
  let time0 ← azimuthTimeAt i j0
  let time1 ← azimuthTimeAt i j1
  return (1 - muX) * time0 + muX * time1

/-- A pass of the loop over the lines. -/
def azimuthPass (lines : Nat) (azimuthTimeAt : Int → Int → Outcome F) (azimuthTime : F)
    (j0 j1 : Int) (muX : F) (i : Nat) : Outcome (Option (Int × Int × F)) := do
  let i0AzTime ← lineAzimuthTime azimuthTimeAt j0 j1 muX i
  let i1AzTime ← lineAzimuthTime azimuthTimeAt j0 j1 muX ((i : Int) + 1)
  -- the first two lines also take what is before them, the last two what is after them
  if (i = 0 ∧ azimuthTime < i0AzTime) ∨ ((i : Int) = (lines : Int) - 2 ∧ azimuthTime ≥ i1AzTime) ∨
      (i0AzTime ≤ azimuthTime ∧ i1AzTime > azimuthTime) then do
    let muY ← quotient (azimuthTime - i0AzTime) (i1AzTime - i0AzTime)
    return some ((i : Int), (i : Int) + 1, muY)
  else return none

/-- `ComputeIndex`, with the arrays as they are read. -/
def computeIndexWith (lines points : Nat) (slantRangeTimeAt : Int → Outcome F)
    (azimuthTimeAt : Int → Int → Outcome F) (azimuthTime slantRangeTime : F) :
    Outcome (Sentinel1Index F) := do
  let (j0, j1) ← rangeIndices points slantRangeTimeAt slantRangeTime
  let time0 ← slantRangeTimeAt j0
  let time1 ← slantRangeTimeAt j1
  let muX ← quotient (slantRangeTime - time0) (time1 - time0)
  let found ← (List.range (lines - 1)).findSomeM?
    (azimuthPass lines azimuthTimeAt azimuthTime j0 j1 muX)
  -- no lines leave the index as it was initialised
  let (i0, i1, muY) := found.getD (-1, -1, 0)
  return ⟨i0, i1, j0, j1, muX, muY⟩

/-- The value of the grid at an index, with the array as it is read. -/
def valueWith (valueAt : Int → Int → Outcome F) (index : Sentinel1Index F) : Outcome F := do
  let value00 ← valueAt index.i0 index.j0
  let value01 ← valueAt index.i0 index.j1
  let value10 ← valueAt index.i1 index.j0
  let value11 ← valueAt index.i1 index.j1
  return (1 - index.muY) * ((1 - index.muX) * value00 + index.muX * value01) +
    index.muY * ((1 - index.muX) * value10 + index.muX * value11)

namespace GeoGrid

variable (g : GeoGrid F)

/-- `Sentinel1Utils::ComputeIndex`. -/
def computeIndex (azimuthTime slantRangeTime : F) : Outcome (Sentinel1Index F) :=
  computeIndexWith g.numOfGeoLines g.numOfGeoPointsPerLine (g.hostAt g.slantRangeTime 0)
    (g.hostAt g.azimuthTime) azimuthTime slantRangeTime

/-- `ComputeIndex` of the device. -/
def deviceComputeIndex (azimuthTime slantRangeTime : F) : Outcome (Sentinel1Index F) :=
  computeIndexWith g.numOfGeoLines g.numOfGeoPointsPerLine
    (g.deviceAt (g.copyToDevice g.slantRangeTime) 0)
    (g.deviceAt (g.copyToDevice g.azimuthTime)) azimuthTime slantRangeTime

def getLatitudeValue : Sentinel1Index F → Outcome F := valueWith (g.hostAt g.latitude)

def getLongitudeValue : Sentinel1Index F → Outcome F := valueWith (g.hostAt g.longitude)

def getSlantRangeTimeValue : Sentinel1Index F → Outcome F :=
  valueWith (g.hostAt g.slantRangeTime)

def getLatitude (azimuthTime slantRangeTime : F) : Outcome F := do
  let index ← g.computeIndex azimuthTime slantRangeTime
  g.getLatitudeValue index

def getLongitude (azimuthTime slantRangeTime : F) : Outcome F := do
  let index ← g.computeIndex azimuthTime slantRangeTime
  g.getLongitudeValue index

/-- `GetSlantRangeTime` with a pair of times. -/
def getSlantRangeTime (azimuthTime slantRangeTime : F) : Outcome F := do
  let index ← g.computeIndex azimuthTime slantRangeTime
  g.getSlantRangeTimeValue index

/-- `GetLatitude` of the device. -/
def deviceGetLatitude : Sentinel1Index F → Outcome F :=
  valueWith (g.deviceAt (g.copyToDevice g.latitude))

/-- `GetLongitude` of the device. -/
def deviceGetLongitude : Sentinel1Index F → Outcome F :=
  valueWith (g.deviceAt (g.copyToDevice g.longitude))

end GeoGrid

end Lookup

/-! ## What is to be found -/

section Spec

variable {F : Type} [Field F] [LinearOrder F] (g : GeoGrid F)

namespace GeoGrid

/-- Two lines of two points at least, with slant range times that increase along the first line and
azimuth times that increase down every column. -/
structure Increases : Prop where
  two_lines : 2 ≤ g.numOfGeoLines
  two_points : 2 ≤ g.numOfGeoPointsPerLine
  slantRangeTime : Increasing (g.slantRangeTime 0) (g.numOfGeoPointsPerLine - 1)
  azimuthTime : ∀ j < g.numOfGeoPointsPerLine,
    Increasing (fun i => g.azimuthTime i j) (g.numOfGeoLines - 1)

/-- The indices are those of a cell of the grid. -/
structure IsCell (index : Sentinel1Index F) : Prop where
  line_nonneg : 0 ≤ index.i0
  line_succ : index.i1 = index.i0 + 1
  line_lt : index.i1 < g.numOfGeoLines
  point_nonneg : 0 ≤ index.j0
  point_succ : index.j1 = index.j0 + 1
  point_lt : index.j1 < g.numOfGeoPointsPerLine

/-- Host and device find one cell, without a division by zero, and at a node both give its
position. -/
def FindsCell (azimuthTime slantRangeTime : F) : Prop :=
  ∃ index, g.computeIndex azimuthTime slantRangeTime = .ok index ∧
    g.deviceComputeIndex azimuthTime slantRangeTime = .ok index ∧ g.IsCell index ∧
    ∀ i < g.numOfGeoLines, ∀ j < g.numOfGeoPointsPerLine,
      azimuthTime = g.azimuthTime i j → slantRangeTime = g.slantRangeTime 0 j →
      (g.getLatitude azimuthTime slantRangeTime = .ok (g.latitude i j) ∧
        g.getLongitude azimuthTime slantRangeTime = .ok (g.longitude i j)) ∧
      g.deviceGetLatitude index = .ok (g.latitude i j) ∧
        g.deviceGetLongitude index = .ok (g.longitude i j)

/-- The azimuth time of a line at a slant range time beyond the first point or the last, on the
straight line through the two points at this end. -/
def extendedTime (slantRangeTime : F) (i : Nat) : F :=
  let j := if slantRangeTime < g.slantRangeTime 0 0 then 0 else g.numOfGeoPointsPerLine - 2
  g.azimuthTime i j + (slantRangeTime - g.slantRangeTime 0 j) /
    (g.slantRangeTime 0 (j + 1) - g.slantRangeTime 0 j) *
      (g.azimuthTime i (j + 1) - g.azimuthTime i j)

/-- Beyond the points of the lines, the azimuth time is before the extended time of the first line,
which is that of the second, or not before any extended time, of which the last two are the
same. -/
def LinesMeet (azimuthTime slantRangeTime : F) : Prop :=
  (slantRangeTime < g.slantRangeTime 0 0 ∨
    g.slantRangeTime 0 (g.numOfGeoPointsPerLine - 1) < slantRangeTime) ∧
  (azimuthTime < g.extendedTime slantRangeTime 0 ∧
      g.extendedTime slantRangeTime 0 = g.extendedTime slantRangeTime 1 ∨
    (∀ i < g.numOfGeoLines, g.extendedTime slantRangeTime i ≤ azimuthTime) ∧
      g.extendedTime slantRangeTime (g.numOfGeoLines - 2) =
        g.extendedTime slantRangeTime (g.numOfGeoLines - 1))

end GeoGrid

end Spec

/-! ## Reading the arrays -/

section Arrays

variable {F : Type} (g : GeoGrid F) {i j : Nat}

namespace GeoGrid

theorem hostAt_natCast (array : Nat → Nat → F) (hi : i < g.numOfGeoLines)
    (hj : j < g.numOfGeoPointsPerLine) : g.hostAt array i j = .ok (array i j) := by
  rw [hostAt, if_pos (by omega)]
  rfl

theorem hostAt_minus_one (array : Nat → Nat → F) (i : Int) : g.hostAt array i (-1) = .undefined :=
  if_neg (by omega)

/-- The copy has the elements of the array. -/
theorem deviceAt_copyToDevice (array : Nat → Nat → F) (hi : i < g.numOfGeoLines)
    (hj : j < g.numOfGeoPointsPerLine) :
    g.deviceAt (g.copyToDevice array) i j = .ok (array i j) := by
  have hsize := g.size_lt
  have hline : (i + 1) * g.numOfGeoPointsPerLine ≤ g.numOfGeoLines * g.numOfGeoPointsPerLine :=
    Nat.mul_le_mul_right _ hi
  rw [Nat.succ_mul] at hline
  have hauxIndex : Fits 32 ((i : Int) * g.numOfGeoPointsPerLine) := by
    rw [← Nat.cast_mul, fits32_iff]
    omega
  have hindex : Fits 32 ((i : Int) * g.numOfGeoPointsPerLine + j) := by
    rw [← Nat.cast_mul, fits32_iff]
    omega
  have hpos : 0 < g.numOfGeoPointsPerLine := by omega
  rw [deviceAt, int32_of_fits hauxIndex, Outcome.ok_bind, int32_of_fits hindex, Outcome.ok_bind,
    ← Nat.cast_mul, ← Nat.cast_mul, ← Nat.cast_add, if_pos (by omega), Int.toNat_natCast,
    copyToDevice, Nat.mul_comm, Nat.mul_add_div hpos, Nat.mul_add_mod, Nat.div_eq_of_lt hj,
    Nat.mod_eq_of_lt hj, Nat.add_zero]

end GeoGrid

end Arrays

/-! ## What the lookup does -/

section Reads

variable {F : Type} [Field F] [LinearOrder F] {lines points : Nat}

/-- What is read of an array is its elements. -/
def Reads (lines points : Nat) (read : Int → Int → Outcome F) (array : Nat → Nat → F) : Prop :=
  ∀ i j : Nat, i < lines → j < points → read i j = .ok (array i j)

omit [Field F] in
/-- The search over the points of the first line. -/
theorem rangeIndices_eq {read : Int → Outcome F} {times : Nat → F} (hpoints : 2 ≤ points)
    (hread : ∀ j : Nat, j < points → read j = .ok (times j)) (slantRangeTime : F) :
    rangeIndices points read slantRangeTime =
      .ok (match searchInterval times (points - 1) slantRangeTime with
        | some j => ((j : Int), (j : Int) + 1)
        | none => (-1, -1)) := by
  have hback : (points : Int) - 1 = ((points - 1 : Nat) : Int) := by omega
  have hloop : (List.range (points - 1)).findM? (fun (j : Nat) => do
      let lower ← read j
      if lower ≤ slantRangeTime then do
        let upper ← read ((j : Int) + 1)
        return decide (upper > slantRangeTime)
      else return false) = .ok (findInterval times (points - 1) slantRangeTime) := by
    refine findM?_eq_ok fun j hj => ?_
    have hlt := List.mem_range.mp hj
    rw [hread j (by omega), Outcome.ok_bind, ← Nat.cast_succ, hread (j + 1) (by omega)]
    split
    · rename_i hle
      simp [hle]
    · rename_i hgt
      simp [hgt]
  rw [rangeIndices, show read 0 = .ok (times 0) from hread 0 (by omega), Outcome.ok_bind,
    searchInterval]
  split
  · rfl
  · rw [hback, hread (points - 1) (by omega), Outcome.ok_bind]
    split
    · rw [Outcome.pure_eq, Outcome.ok.injEq, Prod.mk.injEq]
      omega
    · rw [hloop, Outcome.ok_bind]
      rfl

/-- The azimuth time of a line between two neighbouring columns. -/
def timeBetween (times : Nat → Nat → F) (j : Nat) (muX : F) (i : Nat) : F :=
  (1 - muX) * times i j + muX * times i (j + 1)

variable {read : Int → Int → Outcome F} {times : Nat → Nat → F}

omit [LinearOrder F] in
theorem lineAzimuthTime_eq (hread : Reads lines points read times) {i j : Nat} (hi : i < lines)
    (hj : j + 1 < points) (muX : F) :
    lineAzimuthTime read j ((j : Int) + 1) muX i = .ok (timeBetween times j muX i) := by
  rw [lineAzimuthTime, hread i j hi (by omega), Outcome.ok_bind, ← Nat.cast_succ,
    hread i (j + 1) hi hj, Outcome.ok_bind]
  rfl

/-- The test of a pass. -/
def LineTaken (lines : Nat) (f : Nat → F) (azimuthTime : F) (i : Nat) : Prop :=
  (i = 0 ∧ azimuthTime < f i) ∨ ((i : Int) = (lines : Int) - 2 ∧ azimuthTime ≥ f (i + 1)) ∨
    (f i ≤ azimuthTime ∧ f (i + 1) > azimuthTime)

instance (lines : Nat) (f : Nat → F) (azimuthTime : F) (i : Nat) :
    Decidable (LineTaken lines f azimuthTime i) :=
  inferInstanceAs (Decidable (_ ∨ _ ∨ _))

theorem azimuthPass_eq (hread : Reads lines points read times) {i j : Nat}
    (hi : i + 1 < lines) (hj : j + 1 < points) (azimuthTime muX : F) :
    azimuthPass lines read azimuthTime j ((j : Int) + 1) muX i =
      if LineTaken lines (timeBetween times j muX) azimuthTime i then do
        let muY ← quotient (azimuthTime - timeBetween times j muX i)
          (timeBetween times j muX (i + 1) - timeBetween times j muX i)
        return some ((i : Int), (i : Int) + 1, muY)
      else .ok none := by
  have hnext : lineAzimuthTime read j ((j : Int) + 1) muX ((i : Int) + 1) =
      .ok (timeBetween times j muX (i + 1)) := lineAzimuthTime_eq hread hi hj muX
  rw [azimuthPass, lineAzimuthTime_eq hread (by omega) hj, Outcome.ok_bind, hnext, Outcome.ok_bind]
  rfl

omit [Field F] in
theorem lineTaken_closedSearch (f : Nat → F) (hlines : 2 ≤ lines) (azimuthTime : F) :
    LineTaken lines f azimuthTime (closedSearch f (lines - 1) azimuthTime) := by
  obtain ⟨-, hbefore | hafter | hinside⟩ :=
    closedSearch_spec f (show 0 < lines - 1 by omega) azimuthTime
  · rw [hbefore.2]
    exact .inl ⟨rfl, hbefore.1⟩
  · rw [hafter.2]
    exact .inr (.inl ⟨by omega, hafter.1 _ (by omega)⟩)
  · exact .inr (.inr hinside)

omit [Field F] in
theorem not_lineTaken {f : Nat → F} {azimuthTime : F} {i : Nat}
    (hi : i < closedSearch f (lines - 1) azimuthTime)
    (hlt : closedSearch f (lines - 1) azimuthTime < lines - 1) :
    ¬ LineTaken lines f azimuthTime i := by
  obtain ⟨hfirst, hpast⟩ := le_of_lt_closedSearch hi
  rintro (⟨rfl, hbefore⟩ | ⟨hlast, -⟩ | ⟨-, hinside⟩)
  · exact absurd hfirst (not_le_of_gt hbefore)
  · omega
  · exact absurd hpast (not_le_of_gt hinside)

/-- The loop over the lines takes a line, whatever the times. -/
theorem azimuthLoop_eq (hread : Reads lines points read times) (hlines : 2 ≤ lines) {j : Nat}
    (hj : j + 1 < points) (azimuthTime muX : F) {k : Nat}
    (hk : closedSearch (timeBetween times j muX) (lines - 1) azimuthTime = k) :
    (List.range (lines - 1)).findSomeM?
        (azimuthPass lines read azimuthTime j ((j : Int) + 1) muX) = (do
      let muY ← quotient (azimuthTime - timeBetween times j muX k)
        (timeBetween times j muX (k + 1) - timeBetween times j muX k)
      return some ((k : Int), (k : Int) + 1, muY)) := by
  obtain ⟨hlt, -⟩ := closedSearch_spec (timeBetween times j muX) (show 0 < lines - 1 by omega)
    azimuthTime
  have htaken := lineTaken_closedSearch (timeBetween times j muX) hlines azimuthTime
  rw [hk] at hlt htaken
  have hpass := azimuthPass_eq hread (show k + 1 < lines by omega) hj azimuthTime muX
  rw [if_pos htaken] at hpass
  rw [← hpass]
  refine findSomeM?_range hlt (fun i hi => ?_) ?_
  · rw [azimuthPass_eq hread (by omega) hj]
    exact if_neg (not_lineTaken (hk.symm ▸ hi) (hk.symm ▸ hlt))
  · rw [hpass, quotient]
    split <;> simp

/-- A lookup at a slant range time that has its columns: what is left is the quotient of the azimuth
times. -/
theorem computeIndexWith_eq {slantRead : Int → Outcome F} {slantTimes : Nat → F}
    (hlines : 2 ≤ lines) (hpoints : 2 ≤ points)
    (hslant : ∀ j : Nat, j < points → slantRead j = .ok (slantTimes j))
    (hread : Reads lines points read times) (hincreasing : Increasing slantTimes (points - 1))
    {azimuthTime slantRangeTime : F} {j k : Nat}
    (hj : searchInterval slantTimes (points - 1) slantRangeTime = some j) {muX : F}
    (hmuX : muX = (slantRangeTime - slantTimes j) / (slantTimes (j + 1) - slantTimes j))
    (hk : closedSearch (timeBetween times j muX) (lines - 1) azimuthTime = k) :
    computeIndexWith lines points slantRead read azimuthTime slantRangeTime = (do
      let muY ← quotient (azimuthTime - timeBetween times j muX k)
        (timeBetween times j muX (k + 1) - timeBetween times j muX k)
      return ⟨k, (k : Int) + 1, j, (j : Int) + 1, muX, muY⟩) := by
  obtain ⟨hlt, -, -⟩ := searchInterval_spec hincreasing (by omega) hj
  have hdivisor : slantTimes (j + 1) - slantTimes j ≠ 0 :=
    sub_ne_zero.mpr (hincreasing j (j + 1) (Nat.lt_succ_self j) hlt).ne'
  have hnext : slantRead ((j : Int) + 1) = .ok (slantTimes (j + 1)) := hslant (j + 1) (by omega)
  have hmu : quotient (slantRangeTime - slantTimes j) (slantTimes (j + 1) - slantTimes j) =
      .ok muX := by
    rw [quotient, if_neg hdivisor, hmuX]
  rw [computeIndexWith, rangeIndices_eq hpoints hslant, hj, Outcome.ok_bind]
  dsimp only
  rw [hslant j (by omega), Outcome.ok_bind, hnext, Outcome.ok_bind, hmu, Outcome.ok_bind,
    azimuthLoop_eq hread hlines (by omega) azimuthTime muX hk, quotient]
  split <;> rfl

/-- At the slant range time of the last point no column is found, and what is before the first is
read. -/
theorem computeIndexWith_last {slantRead : Int → Outcome F} {slantTimes : Nat → F}
    (hpoints : 2 ≤ points) (hslant : ∀ j : Nat, j < points → slantRead j = .ok (slantTimes j))
    (hbefore : slantRead (-1) = .undefined) (hincreasing : Increasing slantTimes (points - 1))
    (azimuthTime : F) :
    computeIndexWith lines points slantRead read azimuthTime (slantTimes (points - 1)) =
      .undefined := by
  have hnone := (searchInterval_eq_none hincreasing (by omega)).mpr rfl
  rw [computeIndexWith, rangeIndices_eq hpoints hslant, hnone, Outcome.ok_bind]
  dsimp only
  rw [hbefore]
  rfl

omit [LinearOrder F] in
/-- The value at a cell of the grid. -/
theorem valueWith_eq (hread : Reads lines points read times) {i j : Nat} (hi : i + 1 < lines)
    (hj : j + 1 < points) (muX muY : F) :
    valueWith read ⟨i, (i : Int) + 1, j, (j : Int) + 1, muX, muY⟩ =
      .ok ((1 - muY) * timeBetween times j muX i + muY * timeBetween times j muX (i + 1)) := by
  have h01 : read i ((j : Int) + 1) = .ok (times i (j + 1)) := hread i (j + 1) (by omega) hj
  have h10 : read ((i : Int) + 1) j = .ok (times (i + 1) j) := hread (i + 1) j hi (by omega)
  have h11 : read ((i : Int) + 1) ((j : Int) + 1) = .ok (times (i + 1) (j + 1)) :=
    hread (i + 1) (j + 1) hi hj
  rw [valueWith]
  dsimp only
  rw [hread i j (by omega) (by omega), h01, h10, h11]
  rfl

end Reads

/-! ## The times between two columns -/

section Times

variable {F : Type} [Field F] {times : Nat → Nat → F} {j : Nat}

/-- On the first of the columns they are its times. -/
theorem timeBetween_zero (i : Nat) : timeBetween times j 0 i = times i j := by
  rw [timeBetween]
  ring

variable [LinearOrder F] [IsStrictOrderedRing F]

/-- Between the columns they increase as those of the columns do. -/
theorem increasing_timeBetween {n : Nat} (h : Increasing (fun i => times i j) n)
    (h' : Increasing (fun i => times i (j + 1)) n) {muX : F} (hmuX : 0 ≤ muX) (hmuX' : muX < 1) :
    Increasing (timeBetween times j muX) n := by
  intro i i' hii' hi'
  have hleft := mul_lt_mul_of_pos_left (h i i' hii' hi') (sub_pos.mpr hmuX')
  have hright := mul_le_mul_of_nonneg_left (h' i i' hii' hi').le hmuX
  exact add_lt_add_of_lt_of_le hleft hright

end Times

/-! ## When a cell is found -/

namespace GeoGrid

section Found

variable {F : Type} [Field F] [LinearOrder F] (g : GeoGrid F)

omit [Field F] [LinearOrder F] in
theorem reads_hostAt (array : Nat → Nat → F) :
    Reads g.numOfGeoLines g.numOfGeoPointsPerLine (g.hostAt array) array :=
  fun _ _ hi hj => g.hostAt_natCast array hi hj

omit [Field F] [LinearOrder F] in
theorem reads_deviceAt (array : Nat → Nat → F) :
    Reads g.numOfGeoLines g.numOfGeoPointsPerLine (g.deviceAt (g.copyToDevice array)) array :=
  fun _ _ hi hj => g.deviceAt_copyToDevice array hi hj

/-- The extended time is what is computed with the two points at the end. -/
theorem extendedTime_eq {slantRangeTime : F} {j : Nat}
    (hj : (if slantRangeTime < g.slantRangeTime 0 0 then 0 else g.numOfGeoPointsPerLine - 2) = j) :
    g.extendedTime slantRangeTime = timeBetween g.azimuthTime j
      ((slantRangeTime - g.slantRangeTime 0 j) /
        (g.slantRangeTime 0 (j + 1) - g.slantRangeTime 0 j)) := by
  funext i
  rw [extendedTime, hj, timeBetween]
  ring

variable {g} (h : g.Increases) {azimuthTime slantRangeTime : F}

include h

/-- At the slant range time of the last point the lookup reads before the array. -/
theorem computeIndex_last (azimuthTime : F) : g.computeIndex azimuthTime
    (g.slantRangeTime 0 (g.numOfGeoPointsPerLine - 1)) = .undefined :=
  computeIndexWith_last h.two_points
    (fun j hj => g.hostAt_natCast g.slantRangeTime (i := 0) (by have := h.two_lines; omega) hj)
    (g.hostAt_minus_one g.slantRangeTime 0) h.slantRangeTime azimuthTime

theorem not_findsCell_last (azimuthTime : F) : ¬ g.FindsCell azimuthTime
    (g.slantRangeTime 0 (g.numOfGeoPointsPerLine - 1)) := by
  rintro ⟨index, hindex, -⟩
  rw [computeIndex_last h] at hindex
  cases hindex

section Column

variable {j k : Nat} {muX : F}
  (hj : searchInterval (g.slantRangeTime 0) (g.numOfGeoPointsPerLine - 1) slantRangeTime = some j)
  (hmuX : muX = (slantRangeTime - g.slantRangeTime 0 j) /
    (g.slantRangeTime 0 (j + 1) - g.slantRangeTime 0 j))
  (hk : closedSearch (timeBetween g.azimuthTime j muX) (g.numOfGeoLines - 1) azimuthTime = k)

include hj hmuX hk

theorem computeIndex_eq : g.computeIndex azimuthTime slantRangeTime = (do
    let muY ← quotient (azimuthTime - timeBetween g.azimuthTime j muX k)
      (timeBetween g.azimuthTime j muX (k + 1) - timeBetween g.azimuthTime j muX k)
    return ⟨k, (k : Int) + 1, j, (j : Int) + 1, muX, muY⟩) :=
  computeIndexWith_eq h.two_lines h.two_points
    (fun j hj => g.hostAt_natCast g.slantRangeTime (i := 0) (by have := h.two_lines; omega) hj)
    (g.reads_hostAt g.azimuthTime) h.slantRangeTime hj hmuX hk

theorem deviceComputeIndex_eq : g.deviceComputeIndex azimuthTime slantRangeTime = (do
    let muY ← quotient (azimuthTime - timeBetween g.azimuthTime j muX k)
      (timeBetween g.azimuthTime j muX (k + 1) - timeBetween g.azimuthTime j muX k)
    return ⟨k, (k : Int) + 1, j, (j : Int) + 1, muX, muY⟩) :=
  computeIndexWith_eq h.two_lines h.two_points
    (fun j hj =>
      g.deviceAt_copyToDevice g.slantRangeTime (i := 0) (by have := h.two_lines; omega) hj)
    (g.reads_deviceAt g.azimuthTime) h.slantRangeTime hj hmuX hk

/-- At a node the lines and columns that are found have it at a corner. -/
theorem value_at_node {i j' : Nat} (hi : i < g.numOfGeoLines) (hj' : j' < g.numOfGeoPointsPerLine)
    (hazimuth : azimuthTime = g.azimuthTime i j')
    (hslant : slantRangeTime = g.slantRangeTime 0 j')
    (hne : timeBetween g.azimuthTime j muX k ≠ timeBetween g.azimuthTime j muX (k + 1))
    (array : Nat → Nat → F) :
    (1 - (azimuthTime - timeBetween g.azimuthTime j muX k) /
        (timeBetween g.azimuthTime j muX (k + 1) - timeBetween g.azimuthTime j muX k)) *
          timeBetween array j muX k +
      (azimuthTime - timeBetween g.azimuthTime j muX k) /
        (timeBetween g.azimuthTime j muX (k + 1) - timeBetween g.azimuthTime j muX k) *
          timeBetween array j muX (k + 1) = array i j' := by
  have hlines := h.two_lines
  have hpoints := h.two_points
  -- the last point of a line has no interval
  have hbefore : j' < g.numOfGeoPointsPerLine - 1 := by
    rcases Nat.lt_or_ge j' (g.numOfGeoPointsPerLine - 1) with hlt | hge
    · exact hlt
    · rw [hslant, show j' = g.numOfGeoPointsPerLine - 1 by omega,
        (searchInterval_eq_none h.slantRangeTime (by omega)).mpr rfl] at hj
      cases hj
  obtain rfl : j' = j := by
    rw [hslant, searchInterval_knot h.slantRangeTime hbefore] at hj
    exact Option.some.inj hj
  obtain rfl : muX = 0 := by rw [hmuX, hslant, sub_self, zero_div]
  rw [show timeBetween g.azimuthTime j' 0 = fun i => g.azimuthTime i j' from
    funext timeBetween_zero] at hk hne ⊢
  have hknot := closedSearch_knot (h.azimuthTime j' hj') (show i ≤ g.numOfGeoLines - 1 by omega)
  rw [hazimuth, hknot] at hk
  dsimp only at hne ⊢
  rw [hazimuth, timeBetween_zero, timeBetween_zero]
  -- the node is the first one of its interval, or on the last line the second one
  rcases Nat.lt_or_ge i (g.numOfGeoLines - 1) with hlt | hge
  · obtain rfl : k = i := by omega
    rw [sub_self, zero_div]
    ring
  · obtain rfl : i = k + 1 := by omega
    rw [div_self (sub_ne_zero.mpr hne.symm)]
    ring

/-- Where the times of the two lines differ the cell is found. -/
theorem findsCell_iff_ne : g.FindsCell azimuthTime slantRangeTime ↔
    timeBetween g.azimuthTime j muX k ≠ timeBetween g.azimuthTime j muX (k + 1) := by
  have hhost := computeIndex_eq h hj hmuX hk
  have hdevice := deviceComputeIndex_eq h hj hmuX hk
  constructor
  -- without a length of time the quotient of the host is no number
  · rintro ⟨index, hindex, -⟩ hsame
    rw [hhost, quotient, if_pos (sub_eq_zero.mpr hsame.symm)] at hindex
    cases hindex
  · intro hne
    rw [quotient, if_neg (sub_ne_zero.mpr hne.symm), Outcome.ok_bind] at hhost hdevice
    obtain ⟨hjlt, -, -⟩ := searchInterval_spec h.slantRangeTime
      (by have := h.two_points; omega) hj
    obtain ⟨hklt, -⟩ := closedSearch_spec (timeBetween g.azimuthTime j muX)
      (show 0 < g.numOfGeoLines - 1 by have := h.two_lines; omega) azimuthTime
    rw [hk] at hklt
    refine ⟨_, hhost, hdevice, ⟨?_, rfl, ?_, ?_, rfl, ?_⟩, ?_⟩
    · exact Int.natCast_nonneg k
    · show (k : Int) + 1 < _
      omega
    · exact Int.natCast_nonneg j
    · show (j : Int) + 1 < _
      omega
    -- both sides compute the same value, which at a node is the node's
    · intro i hi j' hj' hazimuth hslant
      have hvalue := value_at_node h hj hmuX hk hi hj' hazimuth hslant hne
      have hgridLine : k + 1 < g.numOfGeoLines := by omega
      have hgridPoint : j + 1 < g.numOfGeoPointsPerLine := by omega
      refine ⟨⟨?_, ?_⟩, ?_, ?_⟩
      · rw [getLatitude, hhost, ← hvalue g.latitude]
        exact valueWith_eq (g.reads_hostAt g.latitude) hgridLine hgridPoint _ _
      · rw [getLongitude, hhost, ← hvalue g.longitude]
        exact valueWith_eq (g.reads_hostAt g.longitude) hgridLine hgridPoint _ _
      · rw [← hvalue g.latitude]
        exact valueWith_eq (g.reads_deviceAt g.latitude) hgridLine hgridPoint _ _
      · rw [← hvalue g.longitude]
        exact valueWith_eq (g.reads_deviceAt g.longitude) hgridLine hgridPoint _ _

end Column

/-! ## Where it is found -/

variable [IsStrictOrderedRing F]

/-- Among the points of the lines the times of two lines differ. -/
theorem findsCell_of_inside (hfirst : g.slantRangeTime 0 0 ≤ slantRangeTime)
    (hlast : slantRangeTime < g.slantRangeTime 0 (g.numOfGeoPointsPerLine - 1)) :
    g.FindsCell azimuthTime slantRangeTime := by
  have hlines := h.two_lines
  have hpoints := h.two_points
  cases hj : searchInterval (g.slantRangeTime 0) (g.numOfGeoPointsPerLine - 1) slantRangeTime with
  | none =>
    rw [searchInterval_eq_none h.slantRangeTime (by omega)] at hj
    exact absurd hlast (hj ▸ lt_irrefl _)
  | some j =>
    obtain ⟨hlt, hle, hpast⟩ := searchInterval_spec h.slantRangeTime (by omega) hj
    have hwidth := sub_pos.mpr (h.slantRangeTime j (j + 1) (Nat.lt_succ_self j) hlt)
    rw [findsCell_iff_ne h hj rfl rfl]
    refine (increasing_timeBetween (h.azimuthTime j (by omega)) (h.azimuthTime (j + 1) (by omega))
      ?_ ?_ _ _ (Nat.lt_succ_self _) ?_).ne
    · exact div_nonneg (sub_nonneg.mpr (hle hfirst)) hwidth.le
    · rw [div_lt_one hwidth]
      exact sub_lt_sub_right (hpast hlast.le) _
    · exact (closedSearch_spec _ (show 0 < g.numOfGeoLines - 1 by omega) azimuthTime).1

omit [IsStrictOrderedRing F] in
/-- Beyond the points the times are the extended ones. -/
theorem findsCell_iff_of_outside (houtside : slantRangeTime < g.slantRangeTime 0 0 ∨
      g.slantRangeTime 0 (g.numOfGeoPointsPerLine - 1) < slantRangeTime) :
    g.FindsCell azimuthTime slantRangeTime ↔ ¬ g.LinesMeet azimuthTime slantRangeTime := by
  have hlines := h.two_lines
  have hall : (∀ i ≤ g.numOfGeoLines - 1, g.extendedTime slantRangeTime i ≤ azimuthTime) ↔
      ∀ i < g.numOfGeoLines, g.extendedTime slantRangeTime i ≤ azimuthTime :=
    ⟨fun hle i hi => hle i (by omega), fun hle i hi => hle i (by omega)⟩
  have hj := searchInterval_outside houtside
  rw [Nat.sub_sub] at hj
  rw [findsCell_iff_ne h hj rfl rfl, not_iff_not, closedSearch_empty_iff _ (by omega), LinesMeet,
    and_iff_right houtside, ← g.extendedTime_eq rfl, Nat.sub_sub, hall]

/-- A cell is found, and gives the position at a node, exactly when the slant range time is not that
of the last point and the lines do not meet where they are taken. -/
theorem findsCell_iff (azimuthTime slantRangeTime : F) :
    g.FindsCell azimuthTime slantRangeTime ↔
      slantRangeTime ≠ g.slantRangeTime 0 (g.numOfGeoPointsPerLine - 1) ∧
        ¬ g.LinesMeet azimuthTime slantRangeTime := by
  rcases lt_trichotomy slantRangeTime (g.slantRangeTime 0 (g.numOfGeoPointsPerLine - 1)) with
    hbefore | rfl | hafter
  · rw [and_iff_right hbefore.ne]
    rcases lt_or_ge slantRangeTime (g.slantRangeTime 0 0) with hfirst | hfirst
    · exact findsCell_iff_of_outside h (.inl hfirst)
    · refine iff_of_true (findsCell_of_inside h hfirst hbefore) fun hmeet => ?_
      exact hmeet.1.elim (not_lt_of_ge hfirst) hbefore.not_gt
  · refine iff_of_false (not_findsCell_last h azimuthTime) fun hne => hne.1 rfl
  · rw [and_iff_right hafter.ne', findsCell_iff_of_outside h (.inr hafter)]

omit [IsStrictOrderedRing F] in
/-- A cell is found where the lookup has any outcome that is defined. -/
theorem findsCell_iff_exists : g.FindsCell azimuthTime slantRangeTime ↔
    ∃ index, g.computeIndex azimuthTime slantRangeTime = .ok index := by
  constructor
  · intro hfinds
    obtain ⟨index, hindex, -⟩ := hfinds
    exact ⟨index, hindex⟩
  · intro hexists
    obtain ⟨index, hindex⟩ := hexists
    cases hj : searchInterval (g.slantRangeTime 0) (g.numOfGeoPointsPerLine - 1)
        slantRangeTime with
    | none =>
      have hlast := (searchInterval_eq_none h.slantRangeTime
        (by have := h.two_points; omega)).mp hj
      rw [hlast, computeIndex_last h] at hindex
      cases hindex
    | some j =>
      rw [findsCell_iff_ne h hj rfl rfl]
      intro hsame
      rw [computeIndex_eq h hj rfl rfl, quotient, if_pos (sub_eq_zero.mpr hsame.symm)] at hindex
      cases hindex

end Found

/-! ## What is found, on any grid -/

section Spec

variable {F : Type} [Field F] [LinearOrder F] {g : GeoGrid F} {azimuthTime slantRangeTime : F}
  {index : Sentinel1Index F}

omit [LinearOrder F] in
/-- A value between two lines. -/
theorem valueWith_eq_lineAzimuthTime (read : Int → Int → Outcome F) (i0 i1 j0 j1 : Int)
    (muX muY : F) : valueWith read ⟨i0, i1, j0, j1, muX, muY⟩ = (do
      let value0 ← lineAzimuthTime read j0 j1 muX i0
      let value1 ← lineAzimuthTime read j0 j1 muX i1
      return (1 - muY) * value0 + muY * value1) := by
  unfold valueWith lineAzimuthTime
  simp only [bind_assoc, pure_bind]

/-- The pass that ends the search interpolates the azimuth time. -/
theorem azimuthPass_eq_some {lines : Nat} {read : Int → Int → Outcome F} {j0 j1 : Int} {muX : F}
    {i : Nat} {i0 i1 : Int} {muY : F}
    (h : azimuthPass lines read azimuthTime j0 j1 muX i = .ok (some (i0, i1, muY))) :
    valueWith read ⟨i0, i1, j0, j1, muX, muY⟩ = .ok azimuthTime := by
  unfold azimuthPass at h
  refine Outcome.of_bind_eq_ok h fun time0 htime0 h => ?_
  refine Outcome.of_bind_eq_ok h fun time1 htime1 h => ?_
  split at h
  · refine Outcome.of_bind_eq_ok h fun q hq h => ?_
    cases h
    unfold quotient at hq
    split at hq
    · cases hq
    · rename_i hne
      cases hq
      rw [valueWith_eq_lineAzimuthTime, htime0, Outcome.ok_bind, htime1, Outcome.ok_bind]
      refine congrArg Outcome.ok ?_
      field_simp
      ring
  · cases h

/-- The columns of a lookup interpolate the slant range time on the first line, and its lines, if
there are any, the azimuth time. -/
theorem computeIndex_eq_ok (h : g.computeIndex azimuthTime slantRangeTime = .ok index) :
    lineAzimuthTime (g.hostAt g.slantRangeTime) index.j0 index.j1 index.muX 0 =
        .ok slantRangeTime ∧
      (index.i0 = -1 ∨ valueWith (g.hostAt g.azimuthTime) index = .ok azimuthTime) := by
  unfold computeIndex computeIndexWith at h
  refine Outcome.of_bind_eq_ok h fun columns _ h => ?_
  refine Outcome.of_bind_eq_ok h fun time0 htime0 h => ?_
  refine Outcome.of_bind_eq_ok h fun time1 htime1 h => ?_
  refine Outcome.of_bind_eq_ok h fun muX hmuX h => ?_
  refine Outcome.of_bind_eq_ok h fun found hfound h => ?_
  cases h
  unfold quotient at hmuX
  split at hmuX
  · cases hmuX
  · rename_i hne
    cases hmuX
    constructor
    · show lineAzimuthTime _ columns.1 columns.2 _ 0 = _
      rw [lineAzimuthTime, htime0, Outcome.ok_bind, htime1, Outcome.ok_bind]
      refine congrArg Outcome.ok ?_
      field_simp
      ring
    · cases found with
      | none => exact .inl rfl
      | some found =>
        obtain ⟨i, hpass⟩ := findSomeM?_eq_some hfound
        exact .inr (azimuthPass_eq_some hpass.2)

end Spec

/-- Two lines of two points, a second apart. -/
def unitGrid : GeoGrid Rat where
  numOfGeoLines := 2
  numOfGeoPointsPerLine := 2
  slantRangeTime _ j := j
  azimuthTime i _ := i
  latitude i _ := i
  longitude _ j := j
  size_lt := by decide

theorem increases_unitGrid : unitGrid.Increases where
  two_lines := le_refl 2
  two_points := le_refl 2
  slantRangeTime _ _ hij _ := Nat.cast_lt.mpr hij
  azimuthTime _ _ _ _ hij _ := Nat.cast_lt.mpr hij

theorem findsCell_iff_unitGrid : unitGrid.FindsCell 0 0 ↔
    (0 : Rat) ≠ unitGrid.slantRangeTime 0 (unitGrid.numOfGeoPointsPerLine - 1) ∧
      ¬ unitGrid.LinesMeet 0 0 :=
  findsCell_iff increases_unitGrid 0 0

/-- The node of the first line and the last point. -/
theorem not_findsCell_lastPoint : ¬ unitGrid.FindsCell 0 1 :=
  not_findsCell_last increases_unitGrid 0

end GeoGrid

end Alus.S1tbx
