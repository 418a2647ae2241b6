import Mathlib.Topology.Order.DenselyOrdered
import Alus.Lib.CubicWindow
import Alus.Lib.Kernel

/-!
# Geoid heights

`GetEGM96` (`earth_gravitational_model96.cuh`) interpolates the geoid height at a position from a
grid of heights with a step of a quarter of a degree, from north to south and from Greenwich
eastward, the last column again the first. It takes a window of four rows and four columns. A
window that would begin before the first row or column is moved inwards, one that would end after
the last repeats it. `ConditionKernel` (`dem_egm96.cu`) adds the heights to the pixels of a tile.

Numbers are exact.
-/

namespace Alus.Dem

open Alus.Lib

/-- `MAX_LATS`. -/
def maxLats : Int := 720

/-- `MAX_LONS`. -/
def maxLons : Int := 1440

section Computation

variable {R : Type} [Field R]

def interpolationCubicS (y0 y1 y2 y3 mu : R) : R :=
  (-(1 / 2) * y0 + 3 / 2 * y1 - 3 / 2 * y2 + 1 / 2 * y3) * mu * mu * mu +
    (y0 - 5 / 2 * y1 + 2 * y2 - 1 / 2 * y3) * (mu * mu) + (-(1 / 2) * y0 + 1 / 2 * y2) * mu + y1

def interpolationCubicB (y0 y1 y2 y3 mu mu2 mu3 : R) : R :=
  (-(1 / 2) * y0 + 3 / 2 * y1 - 3 / 2 * y2 + 1 / 2 * y3) * mu3 +
    (y0 - 5 / 2 * y1 + 2 * y2 - 1 / 2 * y3) * mu2 + (-(1 / 2) * y0 + 1 / 2 * y2) * mu + y1

/-- The columns of a window. -/
structure ColumnIndices where
  c0 : Int
  ci1 : Int
  ci2 : Int
  ci3 : Int

/-- `ri`, for the row `i` of a window. -/
def rowIndex (r0 i maxLats : Int) : Int :=
  (if r0 + i > maxLats then 1 else 0) * maxLats + (if r0 + i ≤ maxLats then 1 else 0) * (r0 + i)

/-- The interpolation along one row. -/
def interpolateRow (egm : List R) (ySize ri : Int) (columns : ColumnIndices) (muX : R) :
    Outcome R := do
  let y0 ← vectorIndex egm (ri * ySize + columns.c0)
  let y1 ← vectorIndex egm (ri * ySize + columns.ci1)
  let y2 ← vectorIndex egm (ri * ySize + columns.ci2)
  let y3 ← vectorIndex egm (ri * ySize + columns.ci3)
  let muX2 := muX * muX
  return interpolationCubicB y0 y1 y2 y3 muX muX2 (muX * muX2)

variable [LinearOrder R]

/-- `r`. -/
def rowPosition (lat : R) : R := (90 - lat) / (1 / 4)

/-- `c`. -/
def columnPosition (lon : R) : R :=
  ((if lon < 0 then 1 else 0) * (lon + 360) + (if lon ≥ 0 then 1 else 0) * lon) / (1 / 4)

variable [FloorRing R]

/-- `r0`, and the first `c0`. -/
def startIndex (position : R) : Int :=
  let start := toInt position - 1
  (if start > 0 then 1 else 0) * start

def columnIndices (c : R) (maxLons : Int) : ColumnIndices :=
  let c0 := startIndex c
  let ci1 := c0 + 1
  let ci2 := c0 + 2
  let ci3 := c0 + 3
  if ci3 > maxLons then ⟨min c0 maxLons, min ci1 maxLons, min ci2 maxLons, min ci3 maxLons⟩
  else ⟨c0, ci1, ci2, ci3⟩

/-- `GetEGM96`. -/
def getEGM96 (lat lon : R) (maxLats maxLons : Int) (egm : List R) : Outcome R := do
  let r := rowPosition lat
  let c := columnPosition lon
  let ySize := maxLons + 1
  let r0 := startIndex r
  let columns := columnIndices c maxLons
  let muX := c - ((columns.c0 + 1 : Int) : R)
  let muY := r - ((r0 + 1 : Int) : R)
  let temp1 ← interpolateRow egm ySize (rowIndex r0 0 maxLats) columns muX
  let temp2 ← interpolateRow egm ySize (rowIndex r0 1 maxLats) columns muX
  let temp3 ← interpolateRow egm ySize (rowIndex r0 2 maxLats) columns muX
  let temp4 ← interpolateRow egm ySize (rowIndex r0 3 maxLats) columns muX
  return interpolationCubicS temp1 temp2 temp3 temp4 muY

/-- `EgmFormatProperties`. -/
structure EgmFormatProperties (R : Type) where
  m00 : R
  m01 : R
  m02 : R
  m10 : R
  m11 : R
  m12 : R
  noDataValue : R
  tileSizeX : Int
  tileSizeY : Int
  deviceEgmArray : List R

/-- The latitude of a pixel's centre. -/
def geoPosLat (tileProp : EgmFormatProperties R) (idx idy : Nat) : R :=
  tileProp.m10 * (idx + 1 / 2) + tileProp.m11 * (idy + 1 / 2) + tileProp.m12

def geoPosLon (tileProp : EgmFormatProperties R) (idx idy : Nat) : R :=
  tileProp.m00 * (idx + 1 / 2) + tileProp.m01 * (idy + 1 / 2) + tileProp.m02

/-- A thread of `ConditionKernel`: what it stores to `target`, and where. -/
def conditionKernel (source : List R) (tileProp : EgmFormatProperties R) (idx idy : Nat) :
    Outcome (Option (Int × R)) :=
  if (idx : Int) < tileProp.tileSizeX ∧ (idy : Int) < tileProp.tileSizeY then do
    let sourceValue ← vectorIndex source (idx + tileProp.tileSizeX * idy)
    if sourceValue ≠ tileProp.noDataValue then
      let height ← getEGM96 (geoPosLat tileProp idx idy) (geoPosLon tileProp idx idy) maxLats
        maxLons tileProp.deviceEgmArray
      return some (idx + tileProp.tileSizeX * idy, sourceValue + height)
    else return some (idx + tileProp.tileSizeX * idy, sourceValue)
  else return none

end Computation

/-! ## The grid -/

/-- The heights of the whole globe. -/
structure GeoidGrid (R : Type) where
  values : List R
  length_values : values.length = 721 * 1441
  /-- The last column is 360° east, the first 0°. -/
  repeats : ∀ i : Nat, i ≤ 720 → values[i * 1441 + 1440]? = values[i * 1441 + 0]?

namespace GeoidGrid

variable {R : Type} [Field R]

/-- The height in a row and a column. -/
def height (grid : GeoidGrid R) (i j : Int) : R := (grid.values[(i * 1441 + j).toNat]?).getD 0

theorem vectorIndex_values (grid : GeoidGrid R) {i j : Int} (hi0 : 0 ≤ i) (hi : i ≤ 720)
    (hj0 : 0 ≤ j) (hj : j ≤ 1440) :
    vectorIndex grid.values (i * 1441 + j) = .ok (grid.height i j) := by
  have hlt : i * 1441 + j < grid.values.length := by
    rw [grid.length_values]
    omega
  obtain ⟨a, hok, hget⟩ := exists_vectorIndex (by omega) hlt
  rw [hok, height, hget]
  rfl

theorem height_last (grid : GeoidGrid R) {i : Int} (hi0 : 0 ≤ i) (hi : i ≤ 720) :
    grid.height i 1440 = grid.height i 0 := by
  have hlast : (i * 1441 + 1440).toNat = i.toNat * 1441 + 1440 := by omega
  have hfirst : (i * 1441 + 0).toNat = i.toNat * 1441 + 0 := by omega
  rw [height, height, hlast, hfirst, grid.repeats i.toNat (by omega)]

variable [LinearOrder R] [FloorRing R]

/-- The interpolant of a row. -/
def alongRow (grid : GeoidGrid R) (c : R) (i : Int) : R := windowed 1440 (grid.height i) c

/-- The interpolant of the grid at a row and a column in between. -/
def interpolant (grid : GeoidGrid R) (r c : R) : R := windowed 720 (grid.alongRow c) r

end GeoidGrid

/-! ## What `GetEGM96` computes -/

section Value

variable {R : Type} [Field R] [LinearOrder R] [FloorRing R]

theorem startIndex_eq (position : R) : startIndex position = windowStart position := by
  unfold startIndex windowStart
  dsimp only
  split <;> omega

theorem rowIndex_eq (r0 i maxLats : Int) : rowIndex r0 i maxLats = min (r0 + i) maxLats := by
  unfold rowIndex
  split <;> split <;> omega

theorem columnIndices_eq (c : R) (maxLons : Int) :
    columnIndices c maxLons = ⟨min (windowStart c) maxLons, min (windowStart c + 1) maxLons,
      min (windowStart c + 2) maxLons, min (windowStart c + 3) maxLons⟩ := by
  unfold columnIndices
  rw [startIndex_eq]
  dsimp only
  split
  · rfl
  · rw [min_eq_left (by omega), min_eq_left (by omega), min_eq_left (by omega),
      min_eq_left (by omega)]

theorem interpolateRow_eq_ok (grid : GeoidGrid R) {i : Int} (hi0 : 0 ≤ i) (hi : i ≤ 720) {c : R}
    (hc : windowStart c ≤ 1440) :
    interpolateRow grid.values 1441 i (columnIndices c 1440)
      (c - (((columnIndices c 1440).c0 + 1 : Int) : R)) = .ok (grid.alongRow c i) := by
  have hstart : 0 ≤ windowStart c := le_max_right _ _
  rw [columnIndices_eq]
  unfold interpolateRow
  dsimp only
  rw [grid.vectorIndex_values hi0 hi (by omega) (by omega),
    grid.vectorIndex_values hi0 hi (by omega) (by omega),
    grid.vectorIndex_values hi0 hi (by omega) (by omega),
    grid.vectorIndex_values hi0 hi (by omega) (by omega)]
  show Outcome.ok _ = _
  congr 1
  unfold interpolationCubicB GeoidGrid.alongRow windowed windowCubic cubic
  rw [min_eq_left hc]
  push_cast
  ring

/-- Every index is inside the grid, and the value is the interpolant. -/
theorem getEGM96_eq_ok (grid : GeoidGrid R) {lat lon : R}
    (hc : windowStart (columnPosition lon) ≤ 1440) :
    getEGM96 lat lon maxLats maxLons grid.values =
      .ok (grid.interpolant (rowPosition lat) (columnPosition lon)) := by
  have hstart : 0 ≤ windowStart (rowPosition lat) := le_max_right _ _
  unfold getEGM96 maxLats maxLons
  dsimp only
  simp only [startIndex_eq, rowIndex_eq]
  rw [show (1440 : Int) + 1 = 1441 from rfl,
    interpolateRow_eq_ok grid (by omega) (by omega) hc,
    interpolateRow_eq_ok grid (by omega) (by omega) hc,
    interpolateRow_eq_ok grid (by omega) (by omega) hc,
    interpolateRow_eq_ok grid (by omega) (by omega) hc]
  show Outcome.ok _ = _
  congr 1
  unfold interpolationCubicS GeoidGrid.interpolant windowed windowCubic cubic
  rw [add_zero]
  push_cast
  rfl

variable [IsStrictOrderedRing R]

omit [FloorRing R] [IsStrictOrderedRing R] in
theorem columnPosition_of_nonneg {lon : R} (h : 0 ≤ lon) : columnPosition lon = lon / (1 / 4) := by
  rw [columnPosition, if_neg (not_lt.mpr h), if_pos h, zero_mul, one_mul, zero_add]

omit [FloorRing R] [IsStrictOrderedRing R] in
theorem columnPosition_of_neg {lon : R} (h : lon < 0) :
    columnPosition lon = (lon + 360) / (1 / 4) := by
  rw [columnPosition, if_pos h, if_neg (not_le.mpr h), zero_mul, one_mul, add_zero]

theorem windowStart_columnPosition {lon : R} (hhigh : lon ≤ 180) :
    windowStart (columnPosition lon) ≤ 1440 := by
  have hc : columnPosition lon ≤ ((1440 : Int) : R) := by
    push_cast
    cases le_or_gt 0 lon with
    | inl h =>
      rw [columnPosition_of_nonneg h]
      linarith
    | inr h =>
      rw [columnPosition_of_neg h]
      linarith
  have hint : toInt (columnPosition lon) ≤ 1440 := toInt_le hc
  unfold windowStart
  omega

end Value

/-! ## A continuous interpolant -/

/-- The positions. -/
def globe : Set (ℝ × ℝ) := Set.Icc (-90) 90 ×ˢ Set.Icc (-180) 180

/-- The heights of the grid are interpolated continuously over the globe. -/
structure InterpolatesGrid (grid : GeoidGrid ℝ) : Prop where
  rows : ∀ p ∈ globe, ∀ i, 0 ≤ i → i ≤ 3 →
    0 ≤ rowIndex (startIndex (rowPosition p.1)) i maxLats ∧
      rowIndex (startIndex (rowPosition p.1)) i maxLats ≤ maxLats
  columns : ∀ p ∈ globe, ∀ j ∈ [(columnIndices (columnPosition p.2) maxLons).c0,
      (columnIndices (columnPosition p.2) maxLons).ci1,
      (columnIndices (columnPosition p.2) maxLons).ci2,
      (columnIndices (columnPosition p.2) maxLons).ci3], 0 ≤ j ∧ j ≤ maxLons
  geoid : ∃ geoid : ℝ × ℝ → ℝ,
    (∀ p ∈ globe, getEGM96 p.1 p.2 maxLats maxLons grid.values = .ok (geoid p)) ∧
    (∀ i j : Int, 0 ≤ i → i ≤ maxLats → 0 ≤ j → j ≤ maxLons → ∀ lat lon, (lat, lon) ∈ globe →
      lat = 90 - i / 4 → lon = j / 4 ∨ lon = j / 4 - 360 →
        geoid (lat, lon) = grid.height i j) ∧
    ContinuousOn geoid globe

/-- Every row and every column begins like a quadratic. -/
def BeginsQuadratic (grid : GeoidGrid ℝ) : Prop :=
  (∀ i, 0 ≤ i → i ≤ maxLats → thirdDifference (grid.height i) = 0) ∧
    ∀ j, 0 ≤ j → j ≤ maxLons → thirdDifference (fun i => grid.height i j) = 0

section Real

variable {grid : GeoidGrid ℝ} {lat lon : ℝ} {i j : Int}

theorem rowIndex_mem (r : ℝ) (hi : 0 ≤ i) :
    0 ≤ rowIndex (startIndex r) i maxLats ∧ rowIndex (startIndex r) i maxLats ≤ maxLats := by
  have hstart : 0 ≤ windowStart r := le_max_right _ _
  rw [rowIndex_eq, startIndex_eq]
  unfold maxLats
  omega

theorem columnIndices_mem (c : ℝ) {j : Int} (hj : j ∈ [(columnIndices c maxLons).c0,
      (columnIndices c maxLons).ci1, (columnIndices c maxLons).ci2,
      (columnIndices c maxLons).ci3]) : 0 ≤ j ∧ j ≤ maxLons := by
  have hstart : 0 ≤ windowStart c := le_max_right _ _
  rw [columnIndices_eq] at hj
  simp only [List.mem_cons, List.not_mem_nil, or_false] at hj
  unfold maxLons at hj ⊢
  omega

theorem rowPosition_node (h : lat = 90 - i / 4) : rowPosition lat = i := by
  rw [rowPosition, h]
  ring

/-- Where a node lies between the columns. -/
theorem columnPosition_node (hj0 : 0 ≤ j) (hj : j ≤ maxLons)
    (h : lon = j / 4 ∨ lon = j / 4 - 360) :
    columnPosition lon = j ∨ columnPosition lon = 0 ∧ j = maxLons := by
  have hcast : (0 : ℝ) ≤ j := by exact_mod_cast hj0
  cases h with
  | inl heast =>
    have hnonneg : 0 ≤ lon := by linarith
    rw [columnPosition_of_nonneg hnonneg, heast]
    left
    ring
  | inr hwest =>
    cases lt_or_eq_of_le hj with
    | inl hlt =>
      have hneg : lon < 0 := by
        have : (j : ℝ) < 1440 := by exact_mod_cast hlt
        linarith
      rw [columnPosition_of_neg hneg, hwest]
      left
      ring
    | inr hlast =>
      have hzero : lon = 0 := by
        rw [hwest, hlast]
        unfold maxLons
        norm_num
      right
      rw [hzero, columnPosition_of_nonneg le_rfl, zero_div]
      exact ⟨rfl, hlast⟩

/-! ### The interpolant at the nodes -/

theorem alongRow_node (hj : 1 ≤ j) (hj' : j ≤ 1440) : grid.alongRow (j : ℝ) i = grid.height i j :=
  windowed_intCast hj hj'

theorem alongRow_zero (grid : GeoidGrid ℝ) (i : Int) :
    grid.alongRow 0 i = grid.height i 0 + thirdDifference (grid.height i) :=
  windowed_zero (by decide)

/-- The end of a row is its beginning again. -/
theorem alongRow_last (hi0 : 0 ≤ i) (hi : i ≤ 720) : grid.alongRow 1440 i = grid.height i 0 := by
  rw [← grid.height_last hi0 hi]
  exact_mod_cast windowed_intCast (y := grid.height i) (R := ℝ) (k := 1440) (by decide) le_rfl

theorem interpolant_node (hi : 1 ≤ i) (hi' : i ≤ 720) (c : ℝ) :
    grid.interpolant i c = grid.alongRow c i :=
  windowed_intCast hi hi'

theorem interpolant_zero (grid : GeoidGrid ℝ) (c : ℝ) :
    grid.interpolant 0 c = grid.alongRow c 0 + thirdDifference (grid.alongRow c) :=
  windowed_zero (by decide)

/-- The interpolant is continuous between the columns. -/
theorem continuousOn_interpolant (grid : GeoidGrid ℝ) :
    ContinuousOn (fun p : ℝ × ℝ => grid.interpolant p.2 p.1)
      (Set.Icc 0 1440 ×ˢ Set.Icc 0 720) := by
  have hrow : ∀ i, ContinuousOn (fun c => grid.alongRow c i) (Set.Icc 0 1440) := by
    intro i
    have hwindow : ContinuousOn (fun p : Unit × ℝ => windowed 1440 (grid.height i) p.2)
        (Set.univ ×ˢ Set.Icc 0 ((1440 : Int) : ℝ)) :=
      continuousOn_windowed isClosed_univ (fun _ => continuousOn_const) (by decide)
    have hend : ((1440 : Int) : ℝ) = 1440 := by norm_num
    rw [hend] at hwindow
    have hpair : ContinuousOn (fun c : ℝ => ((), c)) (Set.Icc 0 1440) :=
      (continuous_const.prodMk continuous_id).continuousOn
    have hmaps : Set.MapsTo (fun c : ℝ => ((), c)) (Set.Icc 0 1440)
        (Set.univ ×ˢ Set.Icc 0 1440) := fun c hc => ⟨Set.mem_univ _, hc⟩
    apply (hwindow.comp hpair hmaps).congr
    intro c _
    rfl
  have hgrid : ContinuousOn (fun p : ℝ × ℝ => windowed 720 (fun i => grid.alongRow p.1 i) p.2)
      (Set.Icc 0 1440 ×ˢ Set.Icc 0 ((720 : Int) : ℝ)) :=
    continuousOn_windowed isClosed_Icc hrow (by decide)
  have hend : ((720 : Int) : ℝ) = 720 := by norm_num
  rw [hend] at hgrid
  exact hgrid

/-! ### From the grid's beginnings -/

theorem mem_globe {p : ℝ × ℝ} :
    p ∈ globe ↔ (-90 ≤ p.1 ∧ p.1 ≤ 90) ∧ -180 ≤ p.2 ∧ p.2 ≤ 180 := Iff.rfl

/-- The value at a position. -/
noncomputable def GeoidGrid.geoid (grid : GeoidGrid ℝ) (p : ℝ × ℝ) : ℝ :=
  grid.interpolant (rowPosition p.1) (columnPosition p.2)

theorem getEGM96_globe (grid : GeoidGrid ℝ) {p : ℝ × ℝ} (hp : p ∈ globe) :
    getEGM96 p.1 p.2 maxLats maxLons grid.values = .ok (grid.geoid p) :=
  getEGM96_eq_ok grid (windowStart_columnPosition (mem_globe.mp hp).2.2)

/-- A sequence that begins like a quadratic is interpolated at all its values. -/
theorem windowed_node {n k : Int} {y : Int → ℝ} (hy : thirdDifference y = 0) (hn : 3 ≤ n)
    (hk0 : 0 ≤ k) (hk : k ≤ n) : windowed n y k = y k := by
  cases lt_or_eq_of_le hk0 with
  | inl hpos => exact windowed_intCast hpos hk
  | inr hzero =>
    rw [← hzero, Int.cast_zero, windowed_zero hn, hy, add_zero]

namespace BeginsQuadratic

variable (h : BeginsQuadratic grid)
include h

theorem alongRow_eq (hi0 : 0 ≤ i) (hi : i ≤ 720) (hj0 : 0 ≤ j) (hj : j ≤ 1440) :
    grid.alongRow j i = grid.height i j :=
  windowed_node (h.1 i hi0 hi) (by decide) hj0 hj

/-- The interpolant goes through every node. -/
theorem interpolant_eq (hi0 : 0 ≤ i) (hi : i ≤ 720) (hj0 : 0 ≤ j) (hj : j ≤ 1440) :
    grid.interpolant i j = grid.height i j := by
  have hrows : grid.interpolant i j = windowed 720 (fun i => grid.height i j) (i : ℝ) :=
    windowed_congr (by decide) fun k hk0 hk => h.alongRow_eq hk0 hk hj0 hj
  rw [hrows]
  exact windowed_node (h.2 j hj0 hj) (by decide) hi0 hi

/-- The interpolant takes the same values on both sides of Greenwich. -/
theorem interpolant_greenwich (r : ℝ) : grid.interpolant r 1440 = grid.interpolant r 0 := by
  apply windowed_congr (by decide)
  intro i hi0 hi
  have hfirst := h.alongRow_eq hi0 hi (j := 0) le_rfl (by decide)
  rw [Int.cast_zero] at hfirst
  rw [alongRow_last hi0 hi, hfirst]

theorem continuousOn_geoid : ContinuousOn grid.geoid globe := by
  have hcontinuous := continuousOn_interpolant grid
  have hrow : Continuous fun p : ℝ × ℝ => rowPosition p.1 := by
    unfold rowPosition
    fun_prop
  have heast : ContinuousOn grid.geoid (Set.Icc (-90) 90 ×ˢ Set.Icc 0 180) := by
    have hposition : ContinuousOn (fun p : ℝ × ℝ => (p.2 / (1 / 4), rowPosition p.1))
        (Set.Icc (-90) 90 ×ˢ Set.Icc 0 180) :=
      ((continuous_snd.div_const _).prodMk hrow).continuousOn
    apply (hcontinuous.comp hposition _).congr
    · intro p hp
      show grid.interpolant (rowPosition p.1) (columnPosition p.2) = _
      rw [columnPosition_of_nonneg hp.2.1]
      rfl
    · intro p hp
      have hlat : -90 ≤ p.1 ∧ p.1 ≤ 90 := hp.1
      have hlon : 0 ≤ p.2 ∧ p.2 ≤ 180 := hp.2
      unfold rowPosition
      refine ⟨⟨?_, ?_⟩, ?_, ?_⟩ <;> dsimp only <;> linarith
  have hwest : ContinuousOn grid.geoid (Set.Icc (-90) 90 ×ˢ Set.Icc (-180) 0) := by
    have hposition : ContinuousOn (fun p : ℝ × ℝ => ((p.2 + 360) / (1 / 4), rowPosition p.1))
        (Set.Icc (-90) 90 ×ˢ Set.Icc (-180) 0) :=
      (((continuous_snd.add continuous_const).div_const _).prodMk hrow).continuousOn
    apply (hcontinuous.comp hposition _).congr
    · intro p hp
      show grid.interpolant (rowPosition p.1) (columnPosition p.2) =
        grid.interpolant (rowPosition p.1) ((p.2 + 360) / (1 / 4))
      have hle : p.2 ≤ 0 := hp.2.2
      cases lt_or_eq_of_le hle with
      | inl hneg => rw [columnPosition_of_neg hneg]
      | inr hzero =>
        -- the meridian itself is reached from the east
        have hend : ((0 : ℝ) + 360) / (1 / 4) = 1440 := by norm_num
        rw [hzero, columnPosition_of_nonneg le_rfl, zero_div, hend, h.interpolant_greenwich]
    · intro p hp
      have hlat : -90 ≤ p.1 ∧ p.1 ≤ 90 := hp.1
      have hlon : -180 ≤ p.2 ∧ p.2 ≤ 0 := hp.2
      unfold rowPosition
      refine ⟨⟨?_, ?_⟩, ?_, ?_⟩ <;> dsimp only <;> linarith
  have hunion : globe =
      (Set.Icc (-90) 90 ×ˢ Set.Icc 0 180) ∪ (Set.Icc (-90) 90 ×ˢ Set.Icc (-180) 0) := by
    rw [← Set.prod_union, Set.union_comm, Set.Icc_union_Icc_eq_Icc (by norm_num) (by norm_num)]
    rfl
  rw [hunion]
  exact heast.union_of_isClosed hwest (isClosed_Icc.prod isClosed_Icc)
    (isClosed_Icc.prod isClosed_Icc)

theorem interpolatesGrid : InterpolatesGrid grid where
  rows p _ _ hi _ := rowIndex_mem (rowPosition p.1) hi
  columns p _ _ hj := columnIndices_mem (columnPosition p.2) hj
  geoid := by
    refine ⟨grid.geoid, fun p hp => getEGM96_globe grid hp, ?_, h.continuousOn_geoid⟩
    intro i j hi0 hi hj0 hj lat lon _ hlat hlon
    show grid.interpolant (rowPosition lat) (columnPosition lon) = _
    rw [rowPosition_node hlat]
    cases columnPosition_node hj0 hj hlon with
    | inl hcolumn =>
      rw [hcolumn]
      exact h.interpolant_eq hi0 hi hj0 hj
    | inr hgreenwich =>
      rw [hgreenwich.1, hgreenwich.2]
      have hnode := h.interpolant_eq hi0 hi (j := 0) le_rfl (by decide)
      rw [Int.cast_zero] at hnode
      rw [hnode]
      exact (grid.height_last hi0 hi).symm

end BeginsQuadratic

/-! ### From a continuous interpolant -/

namespace InterpolatesGrid

variable (h : InterpolatesGrid grid)
include h

/-- What the code computes goes through the nodes. -/
theorem interpolant_eq (hi0 : 0 ≤ i) (hi : i ≤ 720) (hj0 : 0 ≤ j) (hj : j < 1440) :
    grid.interpolant i j = grid.height i j := by
  obtain ⟨geoid, hvalue, hnode, -⟩ := h.geoid
  have hi0' : (0 : ℝ) ≤ i := by exact_mod_cast hi0
  have hi' : (i : ℝ) ≤ 720 := by exact_mod_cast hi
  have hj0' : (0 : ℝ) ≤ j := by exact_mod_cast hj0
  have hj' : (j : ℝ) < 1440 := by exact_mod_cast hj
  -- the eastern hemisphere and the western one
  have hlon : ∃ lon : ℝ, (-180 ≤ lon ∧ lon ≤ 180) ∧ columnPosition lon = j ∧
      (lon = j / 4 ∨ lon = j / 4 - 360) := by
    cases le_or_gt (j : ℝ) 720 with
    | inl heast =>
      refine ⟨j / 4, ⟨by linarith, by linarith⟩, ?_, .inl rfl⟩
      rw [columnPosition_of_nonneg (by linarith)]
      ring
    | inr hwest =>
      refine ⟨j / 4 - 360, ⟨by linarith, by linarith⟩, ?_, .inr rfl⟩
      rw [columnPosition_of_neg (by linarith)]
      ring
  obtain ⟨lon, hrange, hcolumn, hposition⟩ := hlon
  have hglobe : ((90 - i / 4 : ℝ), lon) ∈ globe :=
    mem_globe.mpr ⟨⟨by dsimp only; linarith, by dsimp only; linarith⟩, hrange⟩
  have hok := hvalue _ hglobe
  rw [getEGM96_globe grid hglobe] at hok
  have hgeoid := Outcome.ok.inj hok
  rw [hnode i j hi0 hi hj0 hj.le _ _ hglobe rfl hposition] at hgeoid
  rw [← hgeoid]
  show _ = grid.interpolant (rowPosition (90 - i / 4)) (columnPosition lon)
  rw [rowPosition_node rfl, hcolumn]

/-- Continuity at the north pole, over the meridian. -/
theorem interpolant_greenwich : grid.interpolant 0 1440 = grid.interpolant 0 0 := by
  obtain ⟨geoid, hvalue, -, hcontinuous⟩ := h.geoid
  have hpole : ∀ lon, lon ∈ Set.Icc (-180 : ℝ) 0 → ((90 : ℝ), lon) ∈ globe := fun lon hlon =>
    mem_globe.mpr ⟨⟨by norm_num, le_rfl⟩, hlon.1, le_trans hlon.2 (by norm_num)⟩
  have hrow : rowPosition (90 : ℝ) = 0 := by
    unfold rowPosition
    norm_num
  have hgeoid : ∀ lon ∈ Set.Icc (-180 : ℝ) 0,
      geoid (90, lon) = grid.interpolant 0 (columnPosition lon) := by
    intro lon hlon
    have hok := hvalue _ (hpole lon hlon)
    rw [getEGM96_globe grid (hpole lon hlon)] at hok
    rw [← Outcome.ok.inj hok]
    show grid.interpolant (rowPosition 90) (columnPosition lon) = _
    rw [hrow]
  -- west of the meridian the value is a continuous function of the longitude up to it
  have hwest : Set.EqOn (fun lon : ℝ => geoid (90, lon))
      (fun lon => grid.interpolant 0 ((lon + 360) / (1 / 4))) (Set.Ico (-180) 0) := by
    intro lon hlon
    show geoid (90, lon) = _
    rw [hgeoid lon ⟨hlon.1, hlon.2.le⟩, columnPosition_of_neg hlon.2]
  have hleft : ContinuousOn (fun lon : ℝ => geoid (90, lon)) (Set.Icc (-180) 0) :=
    hcontinuous.comp (continuous_const.prodMk continuous_id).continuousOn hpole
  have hright : ContinuousOn (fun lon : ℝ => grid.interpolant 0 ((lon + 360) / (1 / 4)))
      (Set.Icc (-180) 0) := by
    have hposition : ContinuousOn (fun lon : ℝ => ((lon + 360) / (1 / 4), (0 : ℝ)))
        (Set.Icc (-180) 0) :=
      (((continuous_id.add continuous_const).div_const _).prodMk continuous_const).continuousOn
    apply ((continuousOn_interpolant grid).comp hposition _).congr
    · intro lon _
      rfl
    · intro lon hlon
      have hlow : -180 ≤ lon := hlon.1
      have hhigh : lon ≤ 0 := hlon.2
      refine ⟨⟨?_, ?_⟩, ?_, ?_⟩ <;> dsimp only <;> linarith
  have hclosure : Set.Icc (-180 : ℝ) 0 ⊆ closure (Set.Ico (-180) 0) := by
    rw [closure_Ico (by norm_num)]
  have hall := hwest.of_subset_closure hleft hright Set.Ico_subset_Icc_self hclosure
  have hend : ((0 : ℝ) + 360) / (1 / 4) = 1440 := by norm_num
  have hzero : geoid (90, 0) = grid.interpolant 0 ((0 + 360) / (1 / 4)) :=
    hall ⟨by norm_num, le_rfl⟩
  rw [hgeoid 0 ⟨by norm_num, le_rfl⟩, columnPosition_of_nonneg le_rfl, zero_div, hend] at hzero
  exact hzero.symm

/-- A row but the first begins like a quadratic. -/
theorem thirdDifference_row (hi : 1 ≤ i) (hi' : i ≤ 720) : thirdDifference (grid.height i) = 0 := by
  have hnode := h.interpolant_eq (i := i) (j := 0) (by omega) hi' le_rfl (by decide)
  rw [interpolant_node hi hi', Int.cast_zero, alongRow_zero] at hnode
  linarith

/-- A column but the first begins like a quadratic. -/
theorem thirdDifference_column (hj : 1 ≤ j) (hj' : j < 1440) :
    thirdDifference (fun i => grid.height i j) = 0 := by
  have hnode := h.interpolant_eq (i := 0) (j := j) le_rfl (by decide) (by omega) hj'
  rw [Int.cast_zero, interpolant_zero] at hnode
  unfold thirdDifference at hnode ⊢
  simp only [alongRow_node hj hj'.le] at hnode
  linarith

theorem thirdDifference_firstColumn : thirdDifference (fun i => grid.height i 0) = 0 := by
  have hnode := h.interpolant_eq (i := 0) (j := 0) le_rfl (by decide) le_rfl (by decide)
  rw [Int.cast_zero, ← h.interpolant_greenwich, interpolant_zero] at hnode
  unfold thirdDifference at hnode ⊢
  rw [alongRow_last le_rfl (by decide), alongRow_last (by decide) (by decide),
    alongRow_last (by decide) (by decide), alongRow_last (by decide) (by decide)] at hnode
  linarith

theorem thirdDifference_firstRow : thirdDifference (grid.height 0) = 0 := by
  have hcolumn := h.thirdDifference_firstColumn
  have hnode := h.interpolant_eq (i := 0) (j := 0) le_rfl (by decide) le_rfl (by decide)
  rw [Int.cast_zero, interpolant_zero] at hnode
  have h1 := h.thirdDifference_row (i := 1) le_rfl (by decide)
  have h2 := h.thirdDifference_row (i := 2) (by decide) (by decide)
  have h3 := h.thirdDifference_row (i := 3) (by decide) (by decide)
  rw [thirdDifference, alongRow_zero, alongRow_zero, alongRow_zero, alongRow_zero, h1, h2, h3]
    at hnode
  unfold thirdDifference at hcolumn
  linarith

theorem beginsQuadratic : BeginsQuadratic grid := by
  constructor
  · intro i hi0 hi
    cases lt_or_eq_of_le hi0 with
    | inl hpos => exact h.thirdDifference_row hpos hi
    | inr hzero =>
      rw [← hzero]
      exact h.thirdDifference_firstRow
  · intro j hj0 hj
    cases lt_or_eq_of_le hj0 with
    | inl hpos =>
      cases lt_or_eq_of_le hj with
      | inl hlt => exact h.thirdDifference_column hpos hlt
      | inr hlast =>
        -- the last column is the first
        have hfirst := h.thirdDifference_firstColumn
        subst hlast
        unfold thirdDifference maxLons at *
        dsimp only at hfirst ⊢
        rw [grid.height_last le_rfl (by decide), grid.height_last (by decide) (by decide),
          grid.height_last (by decide) (by decide), grid.height_last (by decide) (by decide)]
        exact hfirst
    | inr hzero =>
      rw [← hzero]
      exact h.thirdDifference_firstColumn

end InterpolatesGrid

/-- **The heights are interpolated exactly where every row and every column begins like a
quadratic**: the first cells take their fraction from a window moved by one. -/
theorem interpolatesGrid_iff (grid : GeoidGrid ℝ) : InterpolatesGrid grid ↔ BeginsQuadratic grid :=
  ⟨fun h => h.beginsQuadratic, fun h => h.interpolatesGrid⟩

/-- A height at the pole, none elsewhere. -/
def poleGrid : GeoidGrid ℝ where
  values := List.replicate 1441 1 ++ List.replicate (720 * 1441) 0
  length_values := by
    rw [List.length_append, List.length_replicate, List.length_replicate]
  repeats i hi := by
    cases i with
    | zero =>
      rw [List.getElem?_append_left (by rw [List.length_replicate]; decide),
        List.getElem?_append_left (by rw [List.length_replicate]; decide),
        List.getElem?_replicate_of_lt (by decide), List.getElem?_replicate_of_lt (by decide)]
    | succ i =>
      rw [List.getElem?_append_right (by rw [List.length_replicate]; omega),
        List.getElem?_append_right (by rw [List.length_replicate]; omega), List.length_replicate,
        List.getElem?_replicate_of_lt (by omega), List.getElem?_replicate_of_lt (by omega)]

theorem not_interpolatesGrid_pole : ¬ InterpolatesGrid poleGrid := by
  intro h
  have hcolumn := h.thirdDifference_firstColumn
  have h0 : poleGrid.height 0 0 = 1 := by
    unfold GeoidGrid.height poleGrid
    rw [List.getElem?_append_left (by rw [List.length_replicate]; decide),
      List.getElem?_replicate_of_lt (by decide)]
    rfl
  have hbelow : ∀ i : Int, 1 ≤ i → i ≤ 720 → poleGrid.height i 0 = 0 := by
    intro i hi hi'
    unfold GeoidGrid.height poleGrid
    rw [List.getElem?_append_right (by rw [List.length_replicate]; omega), List.length_replicate,
      List.getElem?_replicate_of_lt (by omega)]
    rfl
  unfold thirdDifference at hcolumn
  dsimp only at hcolumn
  rw [h0, hbelow 1 le_rfl (by decide), hbelow 2 (by decide) (by decide),
    hbelow 3 (by decide) (by decide)] at hcolumn
  norm_num at hcolumn

end Real

/-! ## The kernel -/

section Kernel

variable {R : Type} [Field R] [LinearOrder R] [FloorRing R] [IsStrictOrderedRing R]
  {grid : GeoidGrid R} {source : List R} {tileProp : EgmFormatProperties R} {idx idy : Nat}

/-- The height that a pixel gets. -/
def conditioned (grid : GeoidGrid R) (tileProp : EgmFormatProperties R) (idx idy : Nat)
    (sourceValue : R) : R :=
  if sourceValue ≠ tileProp.noDataValue then
    sourceValue + grid.interpolant (rowPosition (geoPosLat tileProp idx idy))
      (columnPosition (geoPosLon tileProp idx idy))
  else sourceValue

/-- A pixel of the tile that lies on the globe. -/
theorem conditionKernel_eq_ok (hgrid : tileProp.deviceEgmArray = grid.values)
    (hx : (idx : Int) < tileProp.tileSizeX) (hy : (idy : Int) < tileProp.tileSizeY)
    (hlon : geoPosLon tileProp idx idy ≤ 180) {sourceValue : R}
    (hsource : vectorIndex source (idx + tileProp.tileSizeX * idy) = .ok sourceValue) :
    conditionKernel source tileProp idx idy =
      .ok (some (idx + tileProp.tileSizeX * idy,
        conditioned grid tileProp idx idy sourceValue)) := by
  unfold conditionKernel conditioned
  rw [if_pos ⟨hx, hy⟩, hsource]
  show (if _ then _ else _) = _
  split
  · rw [hgrid, getEGM96_eq_ok grid (windowStart_columnPosition hlon)]
    rfl
  · rfl

omit [IsStrictOrderedRing R] in
/-- A thread stores inside its own row of the tile. -/
theorem conditionKernel_index {k : Int} {a : R}
    (h : conditionKernel source tileProp idx idy = .ok (some (k, a))) :
    (idx : Int) < tileProp.tileSizeX ∧ k = idx + tileProp.tileSizeX * idy := by
  unfold conditionKernel at h
  split at h
  · next hinside =>
    obtain ⟨sourceValue, -, h⟩ := Outcome.bind_eq_ok.mp h
    split at h
    · obtain ⟨height, -, h⟩ := Outcome.bind_eq_ok.mp h
      cases h
      exact ⟨hinside.1, rfl⟩
    · cases h
      exact ⟨hinside.1, rfl⟩
  · cases h

theorem tile_index_inj {width : Int} {x y x' y' : Nat} (hx : (x : Int) < width)
    (hx' : (x' : Int) < width) (h : x + width * y = x' + width * (y' : Int)) : x = x' ∧ y = y' := by
  have hcolumn : (x : Int) = x' := by
    have hmod := congrArg (· % width) h
    simp only [Int.add_mul_emod_self_left] at hmod
    rwa [Int.emod_eq_of_lt (by omega) hx, Int.emod_eq_of_lt (by omega) hx'] at hmod
  have hrow : width * (y : Int) = width * y' := by omega
  have hwidth : width ≠ 0 := by omega
  have := Int.eq_of_mul_eq_mul_left hwidth hrow
  omega

/-- `ConditionWithEgm96`: after the launch every pixel of the tile holds its own height. -/
theorem conditionWithEgm96_stored (s : Scheduler) {gridSize blockSize : Dim3}
    (hvalid : gridSize.Valid) (hgrid : tileProp.deviceEgmArray = grid.values)
    (hlon : geoPosLon tileProp idx idy ≤ 180) {target target' : Int → R}
    (hlaunch : launchStores s gridSize blockSize (conditionKernel source tileProp) target =
      .ok target')
    (hx : idx < gridSize.x * blockSize.x) (hy : idy < gridSize.y * blockSize.y)
    (hxTile : (idx : Int) < tileProp.tileSizeX) (hyTile : (idy : Int) < tileProp.tileSizeY)
    {sourceValue : R}
    (hsource : vectorIndex source (idx + tileProp.tileSizeX * idy) = .ok sourceValue) :
    target' (idx + tileProp.tileSizeX * idy) = conditioned grid tileProp idx idy sourceValue := by
  have hstored := conditionKernel_eq_ok hgrid hxTile hyTile hlon hsource
  apply launchStores_stored hlaunch hvalid hx hy hstored
  -- no other thread stores to the pixel
  intro x y b hother
  obtain ⟨hxOther, hindex⟩ := conditionKernel_index hother
  obtain ⟨rfl, rfl⟩ := tile_index_inj hxTile hxOther hindex
  rw [hstored] at hother
  cases hother
  rfl

end Kernel

end Alus.Dem
