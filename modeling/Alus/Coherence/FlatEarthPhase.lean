import Mathlib.Tactic.FieldSimp
import Mathlib.Tactic.NormNum
import Alus.Coherence.TileCover
import Alus.Lib.BivariatePolynomial
import Alus.Lib.ColumnMajor
import Alus.Lib.LeastSquares
import Alus.Lib.Rounding

/-!
# The flat-earth phase

`CohCuda::CoherencePreTileCalc` (`coherence_calc_cuda.cc`) fits a polynomial to the reference phase
of every burst, and `CoherenceComputation::LaunchCoherence` (`coherence_computation.cu`) evaluates
it at the samples of a tile and turns the secondary samples by it. Both normalise lines and pixels
and list the monomials on their own. The evaluation raises the axes of the tile to the powers by
products of columns, and sums the monomials in a matrix product.

The arithmetic is exact. The points of the fit, the reference phase and the solver of the linear
equations are parameters.
-/

namespace Alus.Coherence

open Alus.Lib
open Matrix

section Computation

variable {K : Type} [Field K]

/-! ## The fit -/

/-- `CohCuda::GetXPows`. -/
def getXPows (srpPolynomialDegree : Nat) : List Nat :=
  (List.range (srpPolynomialDegree + 1)).flatMap fun i =>
    (List.range (i + 1)).map fun j => i - j

/-- `CohCuda::GetYPows`. -/
def getYPows (srpPolynomialDegree : Nat) : List Nat :=
  (List.range (srpPolynomialDegree + 1)).flatMap fun i => (List.range (i + 1)).map fun j => j

/-- `nr_coeffs`. -/
def nrCoeffs (srpPolynomialDegree : Nat) : Nat :=
  ((srpPolynomialDegree + 1) ^ 2 + (srpPolynomialDegree + 1)) / 2

/-- `posL` or `posP`: a line or a pixel of the fit, normalised. -/
def fitPosition [DecidableEq K] (minPos maxPos : Int) (position : K) : Outcome K :=
  let divisor : K := 1 / 4 * (maxPos - minPos)
  if divisor = 0 then .undefined
  else .ok ((position - 1 / 2 * (minPos + maxPos)) / divisor)

/-- A row of the matrix `A`. -/
def designRow (srpPolynomialDegree : Nat) (posL posP : K) : List K :=
  (List.range (srpPolynomialDegree + 1)).flatMap fun j =>
    (List.range (j + 1)).map fun k => posL ^ (j - k) * posP ^ k

/-- The matrix `A`. -/
def designMatrix (srpPolynomialDegree : Nat) (rows : List (List K)) :
    Matrix (Fin rows.length) (Fin (nrCoeffs srpPolynomialDegree)) K :=
  fun i p => (rows.get i).getD p 0

/-- What the flat-earth phase is computed from. The main product has the band and the lines per
burst that the tiles are generated for, and the tiles are of its bursts. -/
structure FlatEarth (K : Type) where
  generator : CohTilesGenerator
  nrOfBursts : Nat
  srpPolynomialDegree : Nat
  /-- `DistributePoints`: a line and a pixel for every point. -/
  positions : List (Int × Int)
  /-- The phase `y` of a burst, by row and column. -/
  referencePhase : Nat → Int → Int → K
  /-- `householderQr().solve`. -/
  solve : Matrix (Fin (nrCoeffs srpPolynomialDegree)) (Fin (nrCoeffs srpPolynomialDegree)) K →
    (Fin (nrCoeffs srpPolynomialDegree) → K) → Fin (nrCoeffs srpPolynomialDegree) → K
  bursts_le : generator.yTiles ≤ nrOfBursts

namespace FlatEarth

variable [DecidableEq K] (w : FlatEarth K)

/-- The rows of `A`. Lines and pixels are counted from one. -/
def designRows : Outcome (List (List K)) :=
  Outcome.collect (w.positions.map fun (line, pixel) => do
    let rows := line + 1
    let columns := pixel + 1
    let posL ← fitPosition 0 (w.generator.linesPerBurst.1 - 1) (rows : K)
    let posP ← fitPosition 0 (w.generator.bandXSize.1 - 1) (columns : K)
    return designRow w.srpPolynomialDegree posL posP)

/-- `y`. -/
def phases (burst : Nat) : List K :=
  w.positions.map fun (line, pixel) => w.referencePhase burst (line + 1) (pixel + 1)

/-- A pass of the loop over the bursts of `CoherencePreTileCalc`. -/
def burstCoeffs (burst : Nat) : Outcome (List K) := do
  let rows ← w.designRows
  let a := designMatrix w.srpPolynomialDegree rows
  let y : Fin rows.length → K := fun i => (w.phases burst).getD i 0
  return List.ofFn (w.solve (aᵀ * a) (aᵀ *ᵥ y))

/-- `CoherencePreTileCalc`: the coefficients of every burst. -/
def coherencePreTileCalc : Outcome (List (List K)) :=
  Outcome.collect ((List.range w.nrOfBursts).map w.burstCoeffs)

end FlatEarth

/-! ## The evaluation -/

variable [LinearOrder K] [FloorRing K]

/-- `Linspace`, into a vector of `elemCount` elements. -/
def linspace (min max : Int) (elemCount : Nat) : Outcome (List K) :=
  -- the number of elements is unsigned
  let divisor : K := (((elemCount : Int) - 1) % 18446744073709551616 : Int)
  if divisor = 0 then .undefined
  else
    let delta : K := (max - min) / divisor
    if delta = 0 then .undefined
    -- fewer values leave elements of the vector as they are, more are past its end
    else if toInt ((max + 1) / delta - min / delta) = elemCount then
      .ok ((List.range elemCount).map fun (i : Nat) => (min / delta + i) * delta)
    else .undefined

/-- `NormalizeDouble`. -/
def normalizeDouble (min max : Int) (x : K) : Outcome K :=
  let divisor : K := 1 / 4 * (max - min)
  if divisor = 0 then .undefined else .ok ((x - 1 / 2 * (min + max)) / divisor)

/-- `Power`, for the powers that occur. -/
def power (x power : K) : K := x ^ ⌊power⌋₊

/-- `Resize` with an `int`: a negative number of elements is more than there is memory for. -/
def resize (size : Int) : Outcome Nat := if 0 ≤ size then .ok size.toNat else .throws

namespace FlatEarth

variable (w : FlatEarth K)

/-- The flat-earth phase of a tile in `LaunchCoherence`, with the coefficients of its burst. -/
def flatEarthPhase (tile : CohTile) (coefs : List K) : Outcome (List K) := do
  let xPows : List K := (getXPows w.srpPolynomialDegree).map Nat.cast
  let yPows : List K := (getYPows w.srpPolynomialDegree).map Nat.cast
  let ones : List K := List.replicate xPows.length 1
  let rangeSize ← resize tile.tileIn.getXSize
  let azimuthSize ← resize tile.tileIn.getYSize
  let rangeValues ← linspace tile.tileIn.xMin tile.tileIn.xMax rangeSize
  let azimuthValues ← linspace 0 (tile.burstSize - 1) azimuthSize
  let rangeAxis ← Outcome.collect
    (rangeValues.map (normalizeDouble 0 (w.generator.bandXSize.1 - 1)))
  let azimuthAxis ← Outcome.collect
    (azimuthValues.map (normalizeDouble 0 (tile.burstSize - 1)))
  let xBases ← gemmTransposed rangeAxis ones rangeSize 1 ones.length
  let yBases ← gemmTransposed azimuthAxis ones azimuthSize 1 ones.length
  let yOnes : List K := List.replicate azimuthSize 1
  let xOnes : List K := List.replicate rangeSize 1
  -- the powers are swapped
  let xExponents ← gemmTransposed xOnes yPows rangeSize 1 yPows.length
  let yExponents ← gemmTransposed yOnes xPows azimuthSize 1 xPows.length
  let xPowers := List.zipWith power xBases xExponents
  let yPowers := List.zipWith power yBases yExponents
  let yCoefs ← gemmTransposed yOnes coefs azimuthSize 1 coefs.length
  let yTerms := List.zipWith (· * ·) yPowers yCoefs
  gemmTransposed xPowers yTerms rangeSize ones.length azimuthSize

/-- The samples of the band in the input rectangle, row by row. -/
def tileSamples {S : Type} (tile : CohTile) (band : Int → Int → S) : List S :=
  columnMajor tile.tileIn.getXSize.toNat tile.tileIn.getYSize.toNat fun i j =>
    band (tile.tileIn.xMin + i) (tile.tileIn.yMin + j)

/-- The secondary samples of a tile in `LaunchCoherence`, turned by their flat-earth phases
(`SlaveMultiplyComplexReferencePhase`). -/
def secondarySamples {S : Type} (turn : K → S → S) (band : Int → Int → S) (tile : CohTile) :
    Outcome (List S) := do
  let burstCoeffs ← w.coherencePreTileCalc
  let coefs ← vectorAt burstCoeffs tile.burstIndex
  let phase ← w.flatEarthPhase tile coefs
  return List.zipWith turn phase (tileSamples tile band)

end FlatEarth

end Computation

/-! ## What is promised -/

section Spec

variable {K : Type} [Field K] [LinearOrder K]

namespace FlatEarth

variable (w : FlatEarth K)

/-- The solver solves equations that have one solution. -/
def SolvesExactly : Prop :=
  ∀ N b, Function.Injective N.mulVec → N *ᵥ w.solve N b = b

/-- The matrix of the fit is computed, and its columns are linearly independent. -/
def FullColumnRank : Prop :=
  ∃ rows, w.designRows = .ok rows ∧
    Function.Injective (designMatrix w.srpPolynomialDegree rows).mulVec

/-- At the points of the fit the reference phase of the burst is a function of row and column. -/
def PhaseIs (burst : Nat) (f : K → K → K) : Prop :=
  ∀ position ∈ w.positions, w.referencePhase burst (position.1 + 1) (position.2 + 1) =
    f (position.1 + 1) (position.2 + 1)

/-- Every secondary sample in the input rectangle of the tile is turned by the function at its line
of the burst and its column of the band. -/
def TurnsBy [FloorRing K] (tile : CohTile) (f : K → K → K) : Prop :=
  ∀ (S : Type) (turn : K → S → S) (band : Int → Int → S) (line column : Int),
    0 ≤ line → line < w.generator.linesPerBurst.1 →
    tile.tileIn.xMin ≤ column → column ≤ tile.tileIn.xMax →
    ∃ samples, w.secondarySamples turn band tile = .ok samples ∧
      vectorIndex samples (line * tile.tileIn.getXSize + (column - tile.tileIn.xMin)) =
        .ok (turn (f line column) (band column (tile.tileIn.yMin + line)))

end FlatEarth

end Spec

/-! ## The monomials -/

section Monomials

variable {K : Type} [Field K] (degree : Nat)

theorem getXPows_eq : getXPows degree = (exponents degree).map Prod.fst := by
  unfold getXPows exponents
  rw [List.map_flatMap]
  refine List.flatMap_congr fun i _ => ?_
  rw [List.map_map]
  rfl

theorem getYPows_eq : getYPows degree = (exponents degree).map Prod.snd := by
  unfold getYPows exponents
  rw [List.map_flatMap]
  refine List.flatMap_congr fun i _ => ?_
  rw [List.map_map]
  rfl

theorem nrCoeffs_eq : nrCoeffs degree = (exponents degree).length := (length_exponents degree).symm

theorem nrCoeffs_pos : 0 < nrCoeffs degree := by
  have hmem : (0, 0) ∈ exponents degree := mem_exponents.mpr (Nat.zero_le degree)
  rw [nrCoeffs_eq]
  exact List.length_pos_of_mem hmem

/-- The fit lists the monomials as the powers are listed. -/
theorem designRow_eq (posL posP : K) :
    designRow degree posL posP = (exponents degree).map fun e => monomial e.1 e.2 posL posP := by
  unfold designRow exponents
  rw [List.map_flatMap]
  refine List.flatMap_congr fun i _ => ?_
  rw [List.map_map]
  rfl

theorem getD_designRow {p : Nat} (hp : p < nrCoeffs degree) (posL posP : K) :
    (designRow degree posL posP).getD p 0 = monomialAt degree p posL posP := by
  rw [nrCoeffs_eq] at hp
  rw [designRow_eq, List.getD_eq_getElem _ _ (by rw [List.length_map]; exact hp), List.getElem_map,
    monomialAt, List.getD_eq_getElem _ _ hp]

/-- The elements of a list, by their places. -/
theorem eq_map_range_getD {α : Type} (l : List α) (a : α) :
    l = (List.range l.length).map fun p => l.getD p a := by
  refine List.ext_getElem (by rw [List.length_map, List.length_range]) fun p hp _ => ?_
  rw [List.getElem_map, List.getElem_range, List.getD_eq_getElem _ _ hp]

end Monomials

/-! ## The coordinates -/

section Coordinates

variable {K : Type} [Field K] [LinearOrder K] [IsStrictOrderedRing K] {maxPos : Int}

/-- A line or a pixel, normalised. -/
def coordinate (maxPos : Int) (x : K) : K := (x - 1 / 2 * maxPos) / (1 / 4 * maxPos)

theorem fitPosition_eq (h : maxPos ≠ 0) (x : K) :
    fitPosition 0 maxPos x = .ok (coordinate maxPos x) := by
  have hmax : (maxPos : K) ≠ 0 := Int.cast_ne_zero.mpr h
  unfold fitPosition coordinate
  dsimp only
  rw [Int.cast_zero, sub_zero, zero_add, if_neg (mul_ne_zero (by norm_num) hmax)]

theorem normalizeDouble_eq (h : maxPos ≠ 0) (x : K) :
    normalizeDouble 0 maxPos x = .ok (coordinate maxPos x) :=
  fitPosition_eq h x

omit [IsStrictOrderedRing K] in
/-- A line or a pixel is normalised only where there are others. -/
theorem ne_zero_of_fitPosition {x y : K} (h : fitPosition 0 maxPos x = .ok y) : maxPos ≠ 0 := by
  rintro rfl
  unfold fitPosition at h
  dsimp only at h
  rw [if_pos (by simp)] at h
  cases h

/-- The line or pixel of a coordinate. -/
theorem of_coordinate (h : maxPos ≠ 0) (x : K) :
    1 / 4 * maxPos * coordinate maxPos x + 1 / 2 * maxPos = x := by
  have hmax : (maxPos : K) ≠ 0 := Int.cast_ne_zero.mpr h
  unfold coordinate
  field_simp
  ring

/-- A polynomial of lines and pixels has coefficients for their coordinates. -/
theorem exists_coefficients_coordinate {degree : Nat} {f : K → K → K}
    (hf : f ∈ polynomials K degree) {maxLine maxPixel : Int} (hline : maxLine ≠ 0)
    (hpixel : maxPixel ≠ 0) : ∃ c : Nat → K, ∀ x y, f x y =
      ∑ p ∈ Finset.range (nrCoeffs degree),
        c p * monomialAt degree p (coordinate maxLine x) (coordinate maxPixel y) := by
  obtain ⟨c, hc⟩ := exists_coefficients (polynomials_affine (1 / 4 * (maxLine : K))
    (1 / 2 * maxLine) (1 / 4 * maxPixel) (1 / 2 * maxPixel) hf)
  refine ⟨c, fun x y => ?_⟩
  rw [nrCoeffs_eq, ← hc, of_coordinate hline, of_coordinate hpixel]

end Coordinates

/-! ## The coefficients -/

namespace FlatEarth

section Fit

variable {K : Type} [Field K] [LinearOrder K] (w : FlatEarth K)

/-- The last line of a burst. -/
def maxLine : Int := w.generator.linesPerBurst.1 - 1

/-- The last pixel of the band. -/
def maxPixel : Int := w.generator.bandXSize.1 - 1

variable [IsStrictOrderedRing K] {w}

/-- A fit of full rank has points, and there are several lines and pixels. -/
theorem FullColumnRank.sizes (h : w.FullColumnRank) : w.maxLine ≠ 0 ∧ w.maxPixel ≠ 0 := by
  obtain ⟨rows, hrows, hinjective⟩ := h
  cases hpositions : w.positions with
  | nil =>
    unfold designRows at hrows
    rw [hpositions] at hrows
    cases hrows
    -- without points all coefficients fit
    have hsame : (fun _ => 0 : Fin (nrCoeffs w.srpPolynomialDegree) → K) = fun _ => 1 :=
      hinjective (funext fun i => i.elim0)
    exact absurd (congrFun hsame ⟨0, nrCoeffs_pos _⟩) zero_ne_one
  | cons position positions =>
    unfold designRows at hrows
    rw [hpositions, List.map_cons] at hrows
    refine Outcome.of_bind_eq_ok hrows fun row hrow _ => ?_
    refine Outcome.of_bind_eq_ok hrow fun posL hposL hrow => ?_
    refine Outcome.of_bind_eq_ok hrow fun posP hposP _ => ?_
    exact ⟨ne_zero_of_fitPosition hposL, ne_zero_of_fitPosition hposP⟩

variable (w) in
/-- The row of a point. -/
def pointRow (position : Int × Int) : List K :=
  designRow w.srpPolynomialDegree (coordinate w.maxLine (position.1 + 1 : Int))
    (coordinate w.maxPixel (position.2 + 1 : Int))

theorem designRows_eq (hline : w.maxLine ≠ 0) (hpixel : w.maxPixel ≠ 0) :
    w.designRows = .ok (w.positions.map w.pointRow) := by
  unfold designRows
  refine Outcome.collect_map_eq_ok fun position _ => ?_
  have hposL := fitPosition_eq hline ((position.1 + 1 : Int) : K)
  have hposP := fitPosition_eq hpixel ((position.2 + 1 : Int) : K)
  show (fitPosition 0 w.maxLine _ >>= fun posL => fitPosition 0 w.maxPixel _ >>= _) = _
  rw [hposL, Outcome.ok_bind, hposP, Outcome.ok_bind]
  rfl

omit [LinearOrder K] [IsStrictOrderedRing K] in
/-- The matrix takes the coefficients of a polynomial to its values at the points. -/
theorem designMatrix_mulVec {f : K → K → K} {c : Nat → K}
    (hc : ∀ x y, f x y = ∑ p ∈ Finset.range (nrCoeffs w.srpPolynomialDegree),
      c p * monomialAt w.srpPolynomialDegree p (coordinate w.maxLine x)
        (coordinate w.maxPixel y)) {burst : Nat} (hphase : w.PhaseIs burst f) :
    designMatrix w.srpPolynomialDegree (w.positions.map w.pointRow) *ᵥ (fun p => c p) =
      fun i : Fin (w.positions.map w.pointRow).length => (w.phases burst).getD i 0 := by
  funext i
  have hi : (i : Nat) < w.positions.length := i.2.trans_eq (List.length_map _)
  have hrow : (w.positions.map w.pointRow).get i = w.pointRow w.positions[(i : Nat)] := by
    rw [List.get_eq_getElem, List.getElem_map]
  have hvalue : (w.phases burst).getD i 0 =
      f (w.positions[(i : Nat)].1 + 1) (w.positions[(i : Nat)].2 + 1) := by
    unfold phases
    rw [List.getD_eq_getElem _ _ (hi.trans_eq (List.length_map _).symm), List.getElem_map]
    exact hphase _ (List.getElem_mem hi)
  show ∑ p, designMatrix w.srpPolynomialDegree (w.positions.map w.pointRow) i p * c p = _
  rw [hvalue, hc, Finset.sum_range]
  refine Finset.sum_congr rfl fun p _ => ?_
  show ((w.positions.map w.pointRow).get i).getD p 0 * c p = _
  rw [hrow, pointRow, getD_designRow _ p.2, mul_comm, Int.cast_add, Int.cast_add, Int.cast_one]

/-- A polynomial phase is fitted exactly. -/
theorem exists_burstCoeffs (hsolve : w.SolvesExactly) (hrank : w.FullColumnRank) {burst : Nat}
    {f : K → K → K} (hf : f ∈ polynomials K w.srpPolynomialDegree)
    (hphase : w.PhaseIs burst f) : ∃ c : Nat → K,
      w.burstCoeffs burst = .ok ((List.range (nrCoeffs w.srpPolynomialDegree)).map c) ∧
      ∀ x y, f x y = ∑ p ∈ Finset.range (nrCoeffs w.srpPolynomialDegree),
        c p * monomialAt w.srpPolynomialDegree p (coordinate w.maxLine x)
          (coordinate w.maxPixel y) := by
  obtain ⟨hline, hpixel⟩ := hrank.sizes
  obtain ⟨rows, hrows, hinjective⟩ := hrank
  obtain ⟨c, hc⟩ := exists_coefficients_coordinate hf hline hpixel
  rw [designRows_eq hline hpixel] at hrows
  cases hrows
  have hsolution := hsolve _ ((designMatrix w.srpPolynomialDegree (w.positions.map w.pointRow))ᵀ *ᵥ
    (designMatrix w.srpPolynomialDegree (w.positions.map w.pointRow) *ᵥ fun p => c p))
    (injective_transpose_mul_self hinjective)
  have hr := normalEquations_unique hinjective hsolution
  refine ⟨c, ?_, hc⟩
  unfold burstCoeffs
  rw [designRows_eq hline hpixel, Outcome.ok_bind]
  dsimp only
  rw [← designMatrix_mulVec hc hphase, hr]
  refine congrArg Outcome.ok ?_
  refine List.ext_getElem (by simp) fun p _ _ => ?_
  simp

omit [IsStrictOrderedRing K] in
/-- The coefficients are computed for every burst. -/
theorem exists_coherencePreTileCalc (hrank : w.FullColumnRank) :
    ∃ coeffs, w.coherencePreTileCalc = .ok coeffs ∧ ∀ burst < w.nrOfBursts, ∃ coefs,
      coeffs[burst]? = some coefs ∧ w.burstCoeffs burst = .ok coefs := by
  obtain ⟨rows, hrows, -⟩ := hrank
  obtain ⟨coeffs, hcoeffs, hat⟩ := Outcome.exists_collect_map (f := w.burstCoeffs)
    (l := List.range w.nrOfBursts) fun burst _ => by
      unfold burstCoeffs
      rw [hrows]
      exact ⟨_, rfl⟩
  exact ⟨coeffs, hcoeffs, fun burst hburst => hat burst burst (List.getElem?_range hburst)⟩

end Fit

/-! ## The phase of a tile -/

section Evaluation

variable {K : Type} [Field K] [LinearOrder K] [IsStrictOrderedRing K] [FloorRing K]

/-- Between two ends a vector of their distance gets all values. -/
theorem linspace_eq (min max : Int) {n : Nat} (hn : 2 ≤ n) (hn' : n < 18446744073709551616)
    (hsize : max - min + 1 = n) : linspace min max n =
      .ok ((List.range n).map fun (i : Nat) => (min : K) + i) := by
  have hlast : ((n : Int) - 1) % 18446744073709551616 = max - min := by omega
  have hne : (max : K) - min ≠ 0 := by
    have hcast : ((max - min : Int) : K) ≠ 0 := Int.cast_ne_zero.mpr (by omega)
    rwa [Int.cast_sub] at hcast
  have hcount : toInt ((max : K) + 1 - min) = n := by
    have hcast : (max : K) + 1 - min = ((n : Int) : K) := by
      rw [← hsize]
      push_cast
      ring
    rw [hcast, toInt_intCast]
  unfold linspace
  rw [hlast]
  dsimp only
  rw [Int.cast_sub, if_neg hne, div_self hne, if_neg one_ne_zero]
  simp only [div_one, mul_one]
  rw [if_pos hcount]

omit [IsStrictOrderedRing K] in
/-- A vector of one element has no values: their distance is a quotient by zero. -/
theorem linspace_one (min max : Int) : linspace (K := K) min max 1 = .undefined := by
  unfold linspace
  exact if_pos (by norm_num)

theorem power_natCast (x : K) (n : Nat) : power x (n : K) = x ^ n := by
  rw [power, Nat.floor_natCast]

omit [LinearOrder K] [IsStrictOrderedRing K] [FloorRing K] in
theorem replicate_one_eq (n : Nat) :
    List.replicate n (1 : K) = (List.range n).map fun _ => 1 := by
  rw [List.map_const', List.length_range]

omit [FloorRing K] in
/-- The values of an axis, normalised. -/
theorem collect_normalizeDouble {maxPos : Int} (h : maxPos ≠ 0) (n : Nat) (x : Nat → K) :
    Outcome.collect (((List.range n).map x).map (normalizeDouble 0 maxPos)) =
      .ok ((List.range n).map fun i => coordinate maxPos (x i)) := by
  rw [List.map_map]
  exact Outcome.collect_map_eq_ok fun i _ => normalizeDouble_eq h (x i)

omit [LinearOrder K] [IsStrictOrderedRing K] [FloorRing K] in
/-- The powers of lines or pixels, place by place. -/
theorem map_exponents_eq (pow : Nat × Nat → Nat) (degree : Nat) :
    ((exponents degree).map pow).map (Nat.cast : Nat → K) =
      (List.range (nrCoeffs degree)).map fun p => (pow ((exponents degree).getD p (0, 0)) : K) := by
  rw [nrCoeffs_eq, List.map_map]
  nth_rewrite 1 [eq_map_range_getD (exponents degree) (0, 0)]
  rw [List.map_map]
  rfl

variable {w : FlatEarth K}

/-- The sums of the monomials, line by line. -/
theorem flatEarthPhase_eq (hline : w.maxLine ≠ 0) (hpixel : w.maxPixel ≠ 0) {tile : CohTile}
    {width height : Nat} (hwidth : tile.tileIn.getXSize = width) (htwo : 2 ≤ width)
    (hsize : width < 18446744073709551616)
    (hburst : tile.burstSize = w.generator.linesPerBurst.1)
    (hlines : tile.tileIn.getYSize = w.generator.linesPerBurst.1)
    (hheight : w.generator.linesPerBurst.1 = height) (c : Nat → K) :
    w.flatEarthPhase tile ((List.range (nrCoeffs w.srpPolynomialDegree)).map c) =
      .ok (columnMajor width height fun i j =>
        ∑ p ∈ Finset.range (nrCoeffs w.srpPolynomialDegree), c p *
          monomialAt w.srpPolynomialDegree p (coordinate w.maxLine (j : K))
            (coordinate w.maxPixel ((tile.tileIn.xMin : K) + i))) := by
  have hbounds := w.generator.linesPerBurst.2
  have hmaxLine : tile.burstSize - 1 = w.maxLine := by rw [hburst, maxLine]
  have hmaxPixel : w.generator.bandXSize.1 - 1 = w.maxPixel := rfl
  have hlast : w.maxLine = height - 1 := by rw [maxLine, hheight]
  have hresizeX : resize tile.tileIn.getXSize = .ok width := by
    rw [hwidth]
    exact if_pos (Int.natCast_nonneg width)
  have hresizeY : resize tile.tileIn.getYSize = .ok height := by
    rw [hlines, hheight]
    exact if_pos (Int.natCast_nonneg height)
  have hrange := linspace_eq (K := K) _ _ htwo hsize hwidth
  have hazimuth := linspace_eq (K := K) (n := height) 0 w.maxLine
    (by omega) (by omega) (by omega)
  unfold flatEarthPhase
  dsimp only
  -- the powers, and the sizes of the vectors
  rw [getXPows_eq, getYPows_eq, map_exponents_eq, map_exponents_eq, List.length_map,
    List.length_map, List.length_range, List.length_replicate, List.length_map, List.length_range,
    hresizeX, Outcome.ok_bind, hresizeY, Outcome.ok_bind]
  -- the axes
  rw [hrange, Outcome.ok_bind, hmaxLine, hazimuth, Outcome.ok_bind, hmaxPixel,
    collect_normalizeDouble hpixel, Outcome.ok_bind, collect_normalizeDouble hline, Outcome.ok_bind]
  -- the matrix products
  rw [replicate_one_eq, replicate_one_eq, replicate_one_eq, gemmTransposed_vectors, Outcome.ok_bind,
    gemmTransposed_vectors, Outcome.ok_bind, gemmTransposed_vectors, Outcome.ok_bind,
    gemmTransposed_vectors, Outcome.ok_bind, gemmTransposed_vectors, Outcome.ok_bind,
    zipWith_columnMajor, zipWith_columnMajor, zipWith_columnMajor, gemmTransposed_columnMajor]
  refine congrArg Outcome.ok (columnMajor_congr fun i _ j _ => Finset.sum_congr rfl fun p _ => ?_)
  rw [mul_one, mul_one, one_mul, one_mul, one_mul, power_natCast, power_natCast, Int.cast_zero,
    zero_add]
  show _ ^ _ * (_ ^ _ * c p) = c p * (_ ^ _ * _ ^ _)
  ring

end Evaluation

end FlatEarth

/-! ## The tiles -/

namespace CohTilesGenerator

variable {g : CohTilesGenerator}

/-- The ends of an input rectangle are `int`s. -/
theorem leftEnd_fits {cohX tileX : Int} {e : Int × Int} (h : g.leftEnd cohX tileX = .ok e) :
    Fits 32 e.2 := by
  have hzero : Fits 32 0 := fits32_iff.mpr (by decide)
  unfold leftEnd at h
  split at h
  · cases h
    exact hzero
  · split at h
    · cases h
      exact hzero
    · refine Outcome.of_bind_eq_ok h fun start _ h => ?_
      refine Outcome.of_bind_eq_ok h fun dataXMin hmin h => ?_
      cases h
      obtain ⟨hfits, rfl⟩ := int32_eq_ok.mp hmin
      exact hfits

theorem rightEnd_fits {cohX xTiles tileX dataXMin : Int} {e : Int × Int}
    (h : g.rightEnd cohX xTiles tileX dataXMin = .ok e) : Fits 32 e.2 := by
  have hband := g.bandXSize.2
  have hlast : Fits 32 (g.bandXSize.1 - 1) := fits32_iff.mpr (by omega)
  have hend : ∀ {z : Int} {e : Int × Int}, (do
      let next ← int32 (dataXMin + g.tileXSize.1)
      let dataXMax ← int32 (next - 1 + z + g.xAsymmetry)
      return ((0 : Int), dataXMax)) = .ok e → Fits 32 e.2 := by
    intro z e h
    refine Outcome.of_bind_eq_ok h fun next _ h => ?_
    refine Outcome.of_bind_eq_ok h fun dataXMax hmax h => ?_
    cases h
    obtain ⟨hfits, rfl⟩ := int32_eq_ok.mp hmax
    exact hfits
  unfold rightEnd at h
  split at h
  · cases h
    exact hlast
  · split at h
    · cases h
      exact hlast
    · split at h
      · exact hend h
      · exact hend h

/-- A tile is one burst high, belongs to one of the bursts, and its width is a number of `int`s. -/
structure IsBurstTile (g : CohTilesGenerator) (t : CohTile) : Prop where
  burstSize : t.burstSize = g.linesPerBurst.1
  lines : t.tileIn.getYSize = g.linesPerBurst.1
  burst_nonneg : 0 ≤ t.burstIndex
  burst_lt : t.burstIndex < g.yTiles
  width_lt : t.tileIn.getXSize < 18446744073709551616

theorem isBurstTile_of_mem {tiles : List CohTile} (h : g.generateTiles = .ok tiles) {t : CohTile}
    (ht : t ∈ tiles) : g.IsBurstTile t := by
  have hpos := g.linesPerBurst.2.1
  obtain ⟨cell, hcell, ht⟩ := g.mem_tiles h ht
  have hrow := (g.mem_cells.mp hcell).1
  unfold cohTile at ht
  refine Outcome.of_bind_eq_ok ht fun dataYMin hmin ht => ?_
  refine Outcome.of_bind_eq_ok ht fun nextY hnext ht => ?_
  refine Outcome.of_bind_eq_ok ht fun left hleft ht => ?_
  refine Outcome.of_bind_eq_ok ht fun right hright ht => ?_
  refine Outcome.of_bind_eq_ok ht fun sizeOut _ ht => ?_
  refine Outcome.of_bind_eq_ok ht fun outXMin _ ht => ?_
  refine Outcome.of_bind_eq_ok ht fun outXMax _ ht => ?_
  obtain ⟨-, rfl⟩ := int32_eq_ok.mp hmin
  obtain ⟨-, rfl⟩ := int32_eq_ok.mp hnext
  have hleft := fits32_iff.mp (leftEnd_fits hleft)
  have hright := fits32_iff.mp (rightEnd_fits hright)
  cases ht
  have hburst : (cell.1 : Int) * g.linesPerBurst.1 / g.linesPerBurst.1 = cell.1 :=
    Int.mul_ediv_cancel _ hpos.ne'
  refine ⟨rfl, ?_, ?_, ?_, ?_⟩
  · show (cell.1 : Int) * g.linesPerBurst.1 + g.linesPerBurst.1 - 1 -
      cell.1 * g.linesPerBurst.1 + 1 = _
    omega
  · show 0 ≤ (cell.1 : Int) * g.linesPerBurst.1 / g.linesPerBurst.1
    omega
  · show (cell.1 : Int) * g.linesPerBurst.1 / g.linesPerBurst.1 < g.yTiles
    omega
  · show right.2 - left.2 + 1 < _
    omega

end CohTilesGenerator

/-! ## The samples of a tile -/

namespace FlatEarth

variable {K : Type} [Field K] [LinearOrder K] [IsStrictOrderedRing K] [FloorRing K]
  {w : FlatEarth K}

omit [IsStrictOrderedRing K] in
/-- A tile that is one column wide has no range axis. -/
theorem not_turnsBy_of_column {tile : CohTile} (hwidth : tile.tileIn.getXSize = 1)
    (f : K → K → K) : ¬ w.TurnsBy tile f := by
  intro h
  have hcolumn : tile.tileIn.xMin ≤ tile.tileIn.xMax := by
    have hwidth : tile.tileIn.xMax - tile.tileIn.xMin + 1 = 1 := hwidth
    omega
  obtain ⟨samples, hsamples, -⟩ := h K (fun x _ => x) (fun _ _ => 0) 0 tile.tileIn.xMin (le_refl 0)
    w.generator.linesPerBurst.2.1 (le_refl _) hcolumn
  refine Outcome.of_bind_eq_ok hsamples fun coeffs _ h => ?_
  refine Outcome.of_bind_eq_ok h fun coefs _ h => ?_
  refine Outcome.of_bind_eq_ok h fun phase hphase _ => ?_
  unfold flatEarthPhase at hphase
  refine Outcome.of_bind_eq_ok hphase fun rangeSize hrangeSize hphase => ?_
  refine Outcome.of_bind_eq_ok hphase fun azimuthSize _ hphase => ?_
  refine Outcome.of_bind_eq_ok hphase fun rangeValues hrangeValues _ => ?_
  rw [hwidth] at hrangeSize
  cases hrangeSize
  rw [show (1 : Int).toNat = 1 from rfl, linspace_one] at hrangeValues
  cases hrangeValues

/-- The samples of a tile that is wider are turned by the polynomial. -/
theorem turnsBy_of_columns (hsolve : w.SolvesExactly) (hrank : w.FullColumnRank)
    {tile : CohTile} (htile : w.generator.IsBurstTile tile) (hwidth : tile.tileIn.getXSize ≠ 1)
    {f : K → K → K} (hf : f ∈ polynomials K w.srpPolynomialDegree)
    (hphase : w.PhaseIs tile.burstIndex.toNat f) : w.TurnsBy tile f := by
  intro S turn band line column hline hline' hcolumn hcolumn'
  have hbursts := w.bursts_le
  have hburst := htile.burst_lt
  have hindex := htile.burst_nonneg
  obtain ⟨hmaxLine, hmaxPixel⟩ := hrank.sizes
  obtain ⟨coeffs, hcoeffs, hall⟩ := exists_coherencePreTileCalc hrank
  obtain ⟨coefs, hcoefs, hfit⟩ := hall tile.burstIndex.toNat (by omega)
  -- the polynomial of the burst has the phase's values
  obtain ⟨c, hc, hvalue⟩ := exists_burstCoeffs hsolve hrank hf hphase
  rw [hc] at hfit
  cases hfit
  have hsize : tile.tileIn.getXSize = tile.tileIn.xMax - tile.tileIn.xMin + 1 := rfl
  obtain ⟨width, hwidthOf⟩ := Int.eq_ofNat_of_zero_le (show 0 ≤ tile.tileIn.getXSize by omega)
  obtain ⟨height, hheight⟩ := Int.eq_ofNat_of_zero_le w.generator.linesPerBurst.2.1.le
  have hlt := htile.width_lt
  have hphases := flatEarthPhase_eq hmaxLine hmaxPixel hwidthOf (by omega) (by omega)
    htile.burstSize htile.lines hheight c
  have hcoefsAt : vectorAt coeffs tile.burstIndex =
      .ok ((List.range (nrCoeffs w.srpPolynomialDegree)).map c) :=
    vectorAt_eq_ok.mpr ⟨hindex, hcoefs⟩
  have hsamples : tileSamples tile band = columnMajor width height fun i j =>
      band (tile.tileIn.xMin + i) (tile.tileIn.yMin + j) := by
    unfold tileSamples
    rw [hwidthOf, htile.lines, hheight]
    rfl
  -- each sample is turned by the phase at its own line and column
  have hrun : w.secondarySamples turn band tile = .ok (columnMajor width height fun i j =>
      turn (f (j : K) ((tile.tileIn.xMin : K) + i))
        (band (tile.tileIn.xMin + i) (tile.tileIn.yMin + j))) := by
    unfold secondarySamples
    rw [hcoeffs, Outcome.ok_bind, hcoefsAt, Outcome.ok_bind, hphases, Outcome.ok_bind, hsamples,
      zipWith_columnMajor]
    refine congrArg Outcome.ok (columnMajor_congr fun i _ j _ => ?_)
    rw [hvalue]
  refine ⟨_, hrun, ?_⟩
  have hlineCast : ((line.toNat : Nat) : Int) = line := Int.toNat_of_nonneg hline
  have hcolumnCast : (((column - tile.tileIn.xMin).toNat : Nat) : Int) =
      column - tile.tileIn.xMin := Int.toNat_of_nonneg (by omega)
  rw [hwidthOf, vectorIndex_columnMajor _ (by omega) (by omega) hline (by omega), hlineCast,
    hcolumnCast, ← Int.cast_natCast line.toNat, hlineCast,
    ← Int.cast_natCast (column - tile.tileIn.xMin).toNat, hcolumnCast, Int.cast_sub,
    add_sub_cancel, add_sub_cancel]

/-- The secondary samples of a tile are turned by the polynomial that the reference phase of its
burst is, exactly when the tile is not one column wide. -/
theorem turnsBy_iff (hsolve : w.SolvesExactly) (hrank : w.FullColumnRank) {tiles : List CohTile}
    (htiles : w.generator.generateTiles = .ok tiles) {tile : CohTile} (htile : tile ∈ tiles)
    {f : K → K → K} (hf : f ∈ polynomials K w.srpPolynomialDegree)
    (hphase : w.PhaseIs tile.burstIndex.toNat f) :
    w.TurnsBy tile f ↔ tile.tileIn.getXSize ≠ 1 := by
  constructor
  · intro h hwidth
    exact not_turnsBy_of_column hwidth f h
  · intro hwidth
    exact turnsBy_of_columns hsolve hrank (CohTilesGenerator.isBurstTile_of_mem htiles htile) hwidth
      hf hphase

end FlatEarth

/-! ## A last tile of one column -/

/-- Three columns in tiles of two, with a window of one sample, on one burst of two lines. One point
is fitted by a constant. -/
def lastColumn : FlatEarth Rat where
  generator := ⟨⟨3, three_isSize⟩, ⟨2, two_isSize⟩, ⟨2, two_isSize⟩, ⟨2, two_isSize⟩,
    ⟨1, one_isSize⟩, ⟨1, one_isSize⟩, ⟨2, two_isSize⟩⟩
  nrOfBursts := 1
  srpPolynomialDegree := 0
  positions := [(0, 0)]
  referencePhase _ _ _ := 1
  solve n b i := b i / n i i
  bursts_le := by decide

/-- The tile of the first two columns. -/
def lastColumnFirst : CohTile where
  tileX := 0
  tileY := 0
  tileIn := ⟨1, 1, 0, 0⟩
  tileOut := ⟨1, 1, 0, 0⟩
  yMinPad := 0
  yMaxPad := 0
  xMinPad := 0
  xMaxPad := 0
  burstIndex := 0
  burstSize := 2

/-- The tile of the last column. -/
def lastColumnLast : CohTile where
  tileX := 1
  tileY := 0
  tileIn := ⟨2, 1, 2, 0⟩
  tileOut := ⟨2, 1, 2, 0⟩
  yMinPad := 0
  yMaxPad := 0
  xMinPad := 0
  xMaxPad := 0
  burstIndex := 0
  burstSize := 2

theorem generateTiles_lastColumn :
    lastColumn.generator.generateTiles = .ok [lastColumnFirst, lastColumnLast] := by
  decide +kernel

/-- An equation with a factor other than zero has one solution. -/
theorem injective_mulVec_one {N : Matrix (Fin 1) (Fin 1) Rat} (h : N 0 0 ≠ 0) :
    Function.Injective N.mulVec := by
  intro x y hxy
  have hfirst : ∑ p, N 0 p * x p = ∑ p, N 0 p * y p := congrFun hxy 0
  rw [Fin.sum_univ_one, Fin.sum_univ_one] at hfirst
  funext i
  rw [Subsingleton.elim i 0]
  exact mul_left_cancel₀ h hfirst

/-- Its solution is a quotient. -/
theorem mulVec_one_div {N : Matrix (Fin 1) (Fin 1) Rat} (b : Fin 1 → Rat)
    (h : Function.Injective N.mulVec) : (N *ᵥ fun i => b i / N i i) = b := by
  have hne : N 0 0 ≠ 0 := by
    intro hzero
    have hsame : (fun _ => 1 : Fin 1 → Rat) = fun _ => 0 := by
      refine h (funext fun i => ?_)
      show ∑ p, N i p * 1 = ∑ p, N i p * 0
      rw [Subsingleton.elim i 0, Fin.sum_univ_one, Fin.sum_univ_one, hzero]
      norm_num
    exact one_ne_zero (congrFun hsame 0)
  funext i
  rw [Subsingleton.elim i 0]
  show ∑ p, N 0 p * (b p / N p p) = b 0
  rw [Fin.sum_univ_one, mul_div_cancel₀ _ hne]

theorem solvesExactly_lastColumn : lastColumn.SolvesExactly :=
  fun _ b h => mulVec_one_div b h

theorem fullColumnRank_lastColumn : lastColumn.FullColumnRank := by
  have hrows : lastColumn.designRows = .ok [[1]] := by decide +kernel
  refine ⟨_, hrows, ?_⟩
  exact injective_mulVec_one (N := designMatrix 0 [[1]]) one_ne_zero

/-- The constant that is fitted. -/
theorem one_mem_lastColumn :
    (fun _ _ => 1 : Rat → Rat → Rat) ∈ polynomials Rat lastColumn.srpPolynomialDegree := by
  have hone : (fun _ _ => 1 : Rat → Rat → Rat) = monomial 0 0 := by
    funext x y
    simp [monomial]
  rw [hone]
  exact monomial_mem (le_refl 0)

theorem phaseIs_lastColumn (burst : Nat) : lastColumn.PhaseIs burst fun _ _ => 1 :=
  fun _ _ => rfl

/-- The fit is exact, but the samples of the last column are not turned. -/
theorem lastColumn_not_turned :
    (lastColumn.SolvesExactly ∧ lastColumn.FullColumnRank ∧
      lastColumn.generator.generateTiles = .ok [lastColumnFirst, lastColumnLast] ∧
      (fun _ _ => 1 : Rat → Rat → Rat) ∈ polynomials Rat lastColumn.srpPolynomialDegree ∧
      lastColumn.PhaseIs lastColumnLast.burstIndex.toNat fun _ _ => 1) ∧
    ¬ lastColumn.TurnsBy lastColumnLast fun _ _ => 1 :=
  ⟨⟨solvesExactly_lastColumn, fullColumnRank_lastColumn, generateTiles_lastColumn,
    one_mem_lastColumn, phaseIs_lastColumn _⟩, FlatEarth.not_turnsBy_of_column rfl _⟩

/-- The samples of the columns before it are. -/
theorem lastColumnFirst_turned : lastColumn.TurnsBy lastColumnFirst fun _ _ => 1 :=
  (FlatEarth.turnsBy_iff solvesExactly_lastColumn fullColumnRank_lastColumn
    generateTiles_lastColumn List.mem_cons_self one_mem_lastColumn (phaseIs_lastColumn _)).mpr
    (by decide)

end Alus.Coherence
