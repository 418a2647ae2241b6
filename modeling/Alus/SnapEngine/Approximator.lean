import Mathlib.Algebra.BigOperators.Fin
import Mathlib.Data.Fin.VecNotation
import Mathlib.Data.Rat.Sqrt
import Mathlib.LinearAlgebra.Matrix.Determinant.Basic
import Alus.Lib.LeastSquares
import Alus.Lib.Machine
import Alus.Lib.Numerals

/-!
# Approximation by a sum of functions

`FXYSum::Approximate` (`f_x_y_sum.cc`, `approximator.cc`) fits the coefficients of a sum of
functions of two variables to points, and keeps the root mean square and the largest error;
`GetBestPolynomial` (`tie_point_geo_coding.cc`) tries several polynomials and selects one by these
errors. The arithmetic is exact, and vectors of a fixed size are functions of their indices.
-/

namespace Alus.SnapEngine

open Alus.Lib Matrix

/-! ## The sum of functions -/

/-- `FXYSum`, with what its constructors ensure. The error statistics are there once the sum has
been approximated. -/
structure FXYSum (K : Type) where
  numTerms : Nat
  f : Fin numTerms → K → K → K
  c : Fin numTerms → K
  order : Int
  errorStatistics : Option (K × K)
  numTerms_pos : 0 < numTerms

structure DataPoint (K : Type) where
  x : K
  y : K
  z : K
  deriving DecidableEq, Repr

/-- The square root, of which only its value at 0 is used. -/
structure SquareRoot (K : Type) [Zero K] where
  sqrt : K → K
  sqrt_zero : sqrt 0 = 0

/-- `bdcSvd().solve`, for the matrix and the right side of a system. -/
abbrev Solver (K : Type) : Type := (n : Nat) → Matrix (Fin n) (Fin n) K → (Fin n → K) → Fin n → K

section Approximation

variable {K : Type}

/-- The columns that hold the coordinates of a point. -/
def coordinateIndices (indices : List Int) : Outcome (Int × Int × Int) :=
  if indices.isEmpty then .ok (0, 1, 2)
  else do
    let ix ← vectorAt indices 0
    let iy ← vectorAt indices 1
    let iz ← vectorAt indices 2
    return (ix, iy, iz)

/-- The points of the data. Each loop reads them again, which changes nothing. -/
def readPoints (data : List (List K)) (indices : List Int) : Outcome (List (DataPoint K)) := do
  let (ix, iy, iz) ← coordinateIndices indices
  Outcome.collect (data.map fun point => do
    let x ← vectorAt point ix
    let y ← vectorAt point iy
    let z ← vectorAt point iz
    return ⟨x, y, z⟩)

variable [Field K]

/-- `FXYSum::ComputeZ`. -/
def computeZ {n : Nat} (f : Fin n → K → K → K) (c : Fin n → K) (x y : K) : K :=
  (List.finRange n).foldl (fun z i => z + c i * f i x y) 0

/-- A row of the matrix: the sums from the diagonal on, and a copy of what lies below it. -/
def fillRow {n : Nat} (f : Fin n → K → K → K) (points : List (DataPoint K))
    (a : Fin n → Fin n → K) (i : Fin n) : Fin n → Fin n → K :=
  Function.update a i fun j =>
    if i ≤ j then (points.map fun p => f i p.x p.y * f j p.x p.y).sum else a j i

/-- The matrix `a` of `ApproximateFXY`. -/
def systemMatrix {n : Nat} (f : Fin n → K → K → K) (points : List (DataPoint K)) :
    Matrix (Fin n) (Fin n) K :=
  (List.finRange n).foldl (fillRow f points) fun _ _ => 0

/-- Its column `n + 1`, the vector `b`. -/
def systemVector {n : Nat} (f : Fin n → K → K → K) (points : List (DataPoint K)) (i : Fin n) : K :=
  (points.map fun p => p.z * f i p.x p.y).sum

section Solve

variable [LinearOrder K] (solve : Solver K)

/-- `Solve2`. -/
def solve2 {n : Nat} (a : Matrix (Fin n) (Fin n) K) (b : Fin n → K) : Outcome (Fin n → K) :=
  if a.det = 0 then .throws else .ok (solve n a b)

/-- `ApproximateFXY`: what the coefficients of the caller are afterwards. -/
def approximateFXY {n : Nat} (data : List (List K)) (indices : List Int)
    (f : Fin n → K → K → K) (c : Fin n → K) : Outcome (Fin n → K) := do
  let points ← readPoints data indices
  -- `c2` is a copy of the coefficients; the solution is stored there
  let _c2 ← solve2 solve (systemMatrix f points) (systemVector f points)
  return c

variable (root : SquareRoot K)

/-- `ComputeErrorStatistics`. -/
def computeErrorStatistics {n : Nat} (data : List (List K)) (indices : List Int)
    (f : Fin n → K → K → K) (c : Fin n → K) : Outcome (K × K) := do
  -- the errors are those of the coefficients of the caller
  let points ← readPoints data indices
  let emax := points.foldl (fun emax p => max emax |computeZ f c p.x p.y - p.z|) 0
  let mse := (points.map fun p => (computeZ f c p.x p.y - p.z) * (computeZ f c p.x p.y - p.z)).sum
  return (root.sqrt (mse / (data.length : K)), emax)

/-- `FXYSum::Approximate`. -/
def FXYSum.approximate (s : FXYSum K) (data : List (List K)) (indices : List Int) :
    Outcome (FXYSum K) := do
  let c ← approximateFXY solve data indices s.f s.c
  let errorStatistics ← computeErrorStatistics root data indices s.f c
  return { s with c := c, errorStatistics := some errorStatistics }

end Solve

end Approximation

/-! ## The selection of a polynomial -/

section Selection

variable {K : Type} [Field K]

/-- A sum of monomials, given by their exponents, with coefficients that are zero. -/
def polynomial (exponents : List (Nat × Nat)) (order : Int) (h : 0 < exponents.length) :
    FXYSum K where
  numTerms := exponents.length
  f i x y := x ^ (exponents.get i).1 * y ^ (exponents.get i).2
  c _ := 0
  order := order
  errorStatistics := none
  numTerms_pos := h

/-- `fxy_linear_`, and so on: the exponents of `x` and `y`. -/
def fxyLinear : List (Nat × Nat) := [(0, 0), (1, 0), (0, 1)]

def fxyBiLinear : List (Nat × Nat) := fxyLinear ++ [(1, 1)]

def fxyQuadratic : List (Nat × Nat) := fxyLinear ++ [(2, 0), (1, 1), (0, 2)]

def fxyBiQuadratic : List (Nat × Nat) := fxyQuadratic ++ [(2, 1), (1, 2), (2, 2)]

def fxyCubic : List (Nat × Nat) := fxyQuadratic ++ [(3, 0), (2, 1), (1, 2), (0, 3)]

def fxyBiCubic : List (Nat × Nat) :=
  fxyCubic ++ [(3, 1), (2, 2), (1, 3), (3, 2), (2, 3), (3, 3)]

def fxy4Th : List (Nat × Nat) := fxyCubic ++ [(4, 0), (3, 1), (2, 2), (1, 3), (0, 4)]

def fxyBi4Th : List (Nat × Nat) :=
  fxy4Th ++ [(4, 1), (3, 2), (2, 3), (1, 4), (4, 2), (3, 3), (2, 4), (4, 3), (3, 4), (4, 4)]

/-- The polynomials that are tried. -/
def potentialPolynomials : List (FXYSum K) :=
  [polynomial fxyLinear 1 (by decide), polynomial fxyBiLinear 2 (by decide),
    polynomial fxyQuadratic 2 (by decide), polynomial fxyBiQuadratic 4 (by decide),
    polynomial fxyCubic 3 (by decide), polynomial fxyBiCubic 6 (by decide),
    polynomial fxy4Th 4 (by decide), polynomial fxyBi4Th 8 (by decide)]

def FXYSum.numPointsRequired (s : FXYSum K) : Int :=
  if s.order ≥ 0 then ((s.order + 2) * (s.order + 1)).tdiv 2 else 2 * s.numTerms

/-- `GetRootMeanSquareError` and `GetMaxError`. -/
def FXYSum.getErrorStatistics (s : FXYSum K) : Outcome (K × K) :=
  match s.errorStatistics with
  | some statistics => .ok statistics
  | none => .throws

/-- The variables of the loop: the least root mean square error, none before the first
polynomial, and the polynomial at `index`. -/
structure BestPolynomial (K : Type) where
  rmseMin : Option K
  polynomial : Option (FXYSum K)

variable [LinearOrder K] (solve : Solver K) (root : SquareRoot K)

/-- The loop over the potential polynomials. -/
def selectPolynomial (data : List (List K)) (indices : List Int) :
    List (FXYSum K) → BestPolynomial K → Outcome (BestPolynomial K)
  | [], best => .ok best
  | potential :: rest, best =>
    if (data.length : Int) ≥ potential.numPointsRequired then
      match (do
        let fitted ← potential.approximate solve root data indices
        let statistics ← fitted.getErrorStatistics
        return (fitted, statistics)) with
      | .ok (fitted, rmse, maxError) =>
        let best := if ∀ r ∈ best.rmseMin, rmse < r then ⟨some rmse, some fitted⟩ else best
        -- this accuracy is sufficient
        if maxError < 1 / 2 then .ok { best with polynomial := some fitted }
        else selectPolynomial data indices rest best
      | .throws => selectPolynomial data indices rest best
      | .undefined => .undefined
    else selectPolynomial data indices rest best

/-- `GetBestPolynomial`. -/
def getBestPolynomial (data : List (List K)) (indices : List Int) :
    Outcome (Option (FXYSum K)) := do
  let best ← selectPolynomial solve root data indices potentialPolynomials ⟨none, none⟩
  return best.polynomial

end Selection

/-! ## The system of the normal equations -/

section System

variable {K : Type} [Field K] {n : Nat} (f : Fin n → K → K → K) (points : List (DataPoint K))

/-- The functions at the points. -/
def basisAt (k : Fin n) (i : Fin points.length) : K := f k points[i].x points[i].y

def heightAt (i : Fin points.length) : K := points[i].z

/-- A sum over the points of the list. -/
theorem sum_points (g : DataPoint K → K) :
    (points.map g).sum = ∑ i : Fin points.length, g points[i] :=
  (Fin.sum_univ_fun_getElem points g).symm

/-- Every row is filled: the copies are taken from rows above. -/
theorem foldl_fillRow {done rest : List (Fin n)} (h : done ++ rest = List.finRange n) {i : Fin n}
    (hi : i ∈ done) (j : Fin n) :
    done.foldl (fillRow f points) (fun _ _ => 0) i j =
      (points.map fun p => f i p.x p.y * f j p.x p.y).sum := by
  induction done using List.reverseRecOn generalizing rest i j with
  | nil => cases hi
  | append_singleton done k ih =>
    rw [List.append_assoc, List.singleton_append] at h
    rw [List.foldl_concat, fillRow]
    by_cases hik : i = k
    · subst hik
      rw [Function.update_self]
      split
      · rfl
      · rename_i hji
        -- a smaller index comes before this one
        have hmem : j ∈ done := by
          have hall : j ∈ done ++ i :: rest := h ▸ List.mem_finRange j
          have hsorted : (done ++ i :: rest).Pairwise (· < ·) := h ▸ List.pairwise_lt_finRange n
          rcases List.mem_append.mp hall with hdone | hrest
          · exact hdone
          · have hle : i ≤ j := by
              rcases List.mem_cons.mp hrest with heq | hrest
              · exact heq ▸ le_refl i
              · exact (List.rel_of_pairwise_cons (List.pairwise_append.mp hsorted).2.1 hrest).le
            exact absurd hle hji
        rw [ih h hmem i]
        simp only [mul_comm]
    · rw [Function.update_of_ne hik]
      refine ih h ?_ j
      rcases List.mem_append.mp hi with hdone | hk
      · exact hdone
      · exact absurd (List.mem_singleton.mp hk) hik

theorem systemMatrix_eq : systemMatrix f points = gramMatrix Finset.univ (basisAt f points) := by
  funext i j
  exact (foldl_fillRow f points (List.append_nil _) (List.mem_finRange i) j).trans
    (sum_points points _)

theorem systemVector_eq :
    systemVector f points = gramVector Finset.univ (basisAt f points) (heightAt points) := by
  funext i
  exact sum_points points _

theorem computeZ_eq_sum (c : Fin n → K) (x y : K) : computeZ f c x y = ∑ i, c i * f i x y := by
  have hfold : ∀ (l : List (Fin n)) (z : K), l.foldl (fun z i => z + c i * f i x y) z =
      z + (l.map fun i => c i * f i x y).sum := by
    intro l
    induction l with
    | nil =>
      intro z
      exact (add_zero z).symm
    | cons i l ih =>
      intro z
      rw [List.foldl_cons, ih, List.map_cons, List.sum_cons, add_assoc]
  rw [computeZ, hfold, zero_add, Fin.sum_univ_def]

theorem computeZ_eq (c : Fin n → K) (i : Fin points.length) :
    computeZ f c points[i].x points[i].y = combination (basisAt f points) c i :=
  computeZ_eq_sum f c _ _

end System

/-! ## The least squares fit -/

section Fit

variable {K : Type} [Field K] [LinearOrder K]

/-- A sum of functions and points whose normal matrix is invertible. -/
structure FitProblem (K : Type) [Field K] where
  sum : FXYSum K
  data : List (List K)
  indices : List Int
  points : List (DataPoint K)
  reads : readPoints data indices = .ok points
  invertible : (gramMatrix Finset.univ (basisAt sum.f points)).det ≠ 0

/-- The sum of the squared errors at the points. -/
def squaredErrors {n : Nat} (f : Fin n → K → K → K) (points : List (DataPoint K))
    (c : Fin n → K) : K :=
  (points.map fun p => (computeZ f c p.x p.y - p.z) ^ 2).sum

/-- `Approximate` returns the least squares fit. -/
def ApproximateFits (solve : Solver K) (root : SquareRoot K) (p : FitProblem K) : Prop :=
  ∃ c statistics, p.sum.approximate solve root p.data p.indices =
      .ok { p.sum with c := c, errorStatistics := some statistics } ∧
    (∀ i, (p.points.map fun q => (computeZ p.sum.f c q.x q.y - q.z) * p.sum.f i q.x q.y).sum = 0) ∧
    (∀ c', squaredErrors p.sum.f p.points c ≤ squaredErrors p.sum.f p.points c') ∧
    ((∃ c', ∀ q ∈ p.points, computeZ p.sum.f c' q.x q.y = q.z) →
      (∀ q ∈ p.points, computeZ p.sum.f c q.x q.y = q.z) ∧ statistics = (0, 0))

/-- `GetBestPolynomial` returns no polynomial whose root mean square error is above that of a
potential polynomial that can be fitted. -/
def BestPolynomialLeast (solve : Solver K) (root : SquareRoot K) (data : List (List K))
    (indices : List Int) : Prop :=
  ∀ best, getBestPolynomial solve root data indices = .ok (some best) →
    ∀ potential ∈ potentialPolynomials, ∀ fitted,
      potential.approximate solve root data indices = .ok fitted →
      ∃ rmse maxError rmse' maxError', best.getErrorStatistics = .ok (rmse, maxError) ∧
        fitted.getErrorStatistics = .ok (rmse', maxError') ∧ rmse ≤ rmse'

variable {solve : Solver K} {root : SquareRoot K}

/-- What `Approximate` does: the coefficients stay, and the statistics are theirs. -/
theorem approximate_eq_ok {s fitted : FXYSum K} {data : List (List K)} {indices : List Int} :
    s.approximate solve root data indices = .ok fitted ↔
      ∃ points statistics, readPoints data indices = .ok points ∧
        (systemMatrix s.f points).det ≠ 0 ∧
        computeErrorStatistics root data indices s.f s.c = .ok statistics ∧
        fitted = { s with errorStatistics := some statistics } := by
  constructor
  · intro h
    refine Outcome.of_bind_eq_ok h fun c hc h => ?_
    refine Outcome.of_bind_eq_ok h fun statistics hstatistics h => ?_
    refine Outcome.of_bind_eq_ok hc fun points hpoints hc => ?_
    refine Outcome.of_bind_eq_ok hc fun _ hsolve hc => ?_
    cases hc
    have hdet : (systemMatrix s.f points).det ≠ 0 := by
      intro hzero
      rw [solve2, if_pos hzero] at hsolve
      cases hsolve
    exact ⟨points, statistics, hpoints, hdet, hstatistics, (Outcome.ok.inj h).symm⟩
  · rintro ⟨points, statistics, hpoints, hdet, hstatistics, rfl⟩
    have hc : approximateFXY solve data indices s.f s.c = .ok s.c := by
      rw [approximateFXY, hpoints, Outcome.ok_bind, solve2, if_neg hdet]
      rfl
    rw [FXYSum.approximate, hc, Outcome.ok_bind, hstatistics]
    rfl

/-! ### The coefficients -/

section Coefficients

variable {n : Nat} {f : Fin n → K → K → K} {points : List (DataPoint K)} {c : Fin n → K}

omit [LinearOrder K] in
theorem orthogonal_iff :
    (∀ i, (points.map fun q => (computeZ f c q.x q.y - q.z) * f i q.x q.y).sum = 0) ↔
      ResidualOrthogonal Finset.univ (basisAt f points) (heightAt points) c := by
  refine forall_congr' fun i => ?_
  rw [sum_points]
  simp only [computeZ_eq]
  rfl

omit [LinearOrder K] in
theorem squaredErrors_eq (c : Fin n → K) : squaredErrors f points c =
    squaredError Finset.univ (basisAt f points) (heightAt points) c := by
  rw [squaredErrors, sum_points]
  simp only [computeZ_eq]
  rfl

omit [LinearOrder K] in
theorem computeZ_eq_height_iff (c : Fin n → K) :
    (∀ q ∈ points, computeZ f c q.x q.y = q.z) ↔
      ∀ i ∈ Finset.univ, combination (basisAt f points) c i = heightAt points i := by
  constructor
  · intro h i _
    rw [← computeZ_eq]
    exact h _ (List.getElem_mem i.isLt)
  · intro h q hq
    obtain ⟨i, hi, rfl⟩ := List.mem_iff_getElem.mp hq
    have hfit := h ⟨i, hi⟩ (Finset.mem_univ _)
    rw [← computeZ_eq] at hfit
    exact hfit

variable [IsStrictOrderedRing K]

/-- Without errors the statistics are zero. -/
theorem computeErrorStatistics_zero {data : List (List K)} {indices : List Int}
    (hreads : readPoints data indices = .ok points)
    (h : ∀ q ∈ points, computeZ f c q.x q.y = q.z) :
    computeErrorStatistics root data indices f c = .ok (0, 0) := by
  have hmax : ∀ l : List (DataPoint K), (∀ q ∈ l, computeZ f c q.x q.y = q.z) →
      l.foldl (fun emax q => max emax |computeZ f c q.x q.y - q.z|) 0 = 0 := by
    intro l
    induction l with
    | nil =>
      intro _
      rfl
    | cons q l ih =>
      intro hl
      rw [List.foldl_cons, hl q List.mem_cons_self, sub_self, abs_zero, max_self]
      exact ih fun q' hq' => hl q' (List.mem_cons_of_mem q hq')
  have hsum : (points.map fun q => (computeZ f c q.x q.y - q.z) *
      (computeZ f c q.x q.y - q.z)).sum = 0 := by
    apply List.sum_eq_zero
    intro t ht
    obtain ⟨q, hq, rfl⟩ := List.mem_map.mp ht
    rw [h q hq, sub_self, mul_zero]
  rw [computeErrorStatistics, hreads, Outcome.ok_bind, hmax points h, hsum]
  dsimp only
  rw [zero_div, root.sqrt_zero]
  rfl

end Coefficients

variable [IsStrictOrderedRing K]

/-- The fit is the one of least squares exactly when the coefficients were so before. -/
theorem approximateFits_iff (p : FitProblem K) : ApproximateFits solve root p ↔
    systemMatrix p.sum.f p.points *ᵥ p.sum.c = systemVector p.sum.f p.points := by
  rw [systemMatrix_eq, systemVector_eq, gramMatrix_mulVec_eq_iff]
  constructor
  · rintro ⟨c, statistics, happroximate, hnormal, -, -⟩
    obtain ⟨_, _, -, -, -, hsame⟩ := approximate_eq_ok.mp happroximate
    have hc : c = p.sum.c := by
      injection hsame
    rw [← hc]
    exact orthogonal_iff.mp hnormal
  · intro h
    have hdet : (systemMatrix p.sum.f p.points).det ≠ 0 := by
      rw [systemMatrix_eq]
      exact p.invertible
    have hstatistics : ∃ statistics,
        computeErrorStatistics root p.data p.indices p.sum.f p.sum.c = .ok statistics := by
      rw [computeErrorStatistics, p.reads]
      exact ⟨_, rfl⟩
    obtain ⟨statistics, hstatistics⟩ := hstatistics
    refine ⟨p.sum.c, statistics, approximate_eq_ok.mpr ⟨p.points, statistics, p.reads, hdet,
      hstatistics, rfl⟩, orthogonal_iff.mpr h, fun c' => ?_, fun hexact => ?_⟩
    · rw [squaredErrors_eq, squaredErrors_eq]
      exact h.squaredError_le c'
    · obtain ⟨c', hc'⟩ := hexact
      have hfits : ∀ q ∈ p.points, computeZ p.sum.f p.sum.c q.x q.y = q.z :=
        (computeZ_eq_height_iff p.sum.c).mpr (h.fits ((computeZ_eq_height_iff c').mp hc'))
      refine ⟨hfits, ?_⟩
      rw [computeErrorStatistics_zero p.reads hfits, Outcome.ok.injEq] at hstatistics
      exact hstatistics.symm

end Fit

/-! ## The selected polynomial -/

section Best

variable {K : Type} [Field K] [LinearOrder K] {solve : Solver K} {root : SquareRoot K}

omit [LinearOrder K] in
theorem coefficients_zero {s : FXYSum K} (hs : s ∈ potentialPolynomials) : s.c = fun _ => 0 := by
  simp only [potentialPolynomials, List.mem_cons, List.not_mem_nil, or_false] at hs
  rcases hs with rfl | rfl | rfl | rfl | rfl | rfl | rfl | rfl <;> rfl

omit [LinearOrder K] in
theorem computeZ_zero {n : Nat} (f : Fin n → K → K → K) (x y : K) :
    computeZ f (fun _ => 0) x y = 0 := by
  rw [computeZ_eq_sum]
  simp only [zero_mul, Finset.sum_const_zero]

/-- The statistics of the zero function, whatever it is a sum of. -/
theorem computeErrorStatistics_congr {n m : Nat} (f : Fin n → K → K → K) (g : Fin m → K → K → K)
    (data : List (List K)) (indices : List Int) :
    computeErrorStatistics root data indices f (fun _ => 0) =
      computeErrorStatistics root data indices g fun _ => 0 := by
  unfold computeErrorStatistics
  simp only [computeZ_zero]

variable {data : List (List K)} {indices : List Int}

/-- The error statistics are those of the zero function. -/
def HasZeroStatistics (root : SquareRoot K) (data : List (List K)) (indices : List Int)
    (s : FXYSum K) : Prop :=
  ∃ statistics, s.errorStatistics = some statistics ∧
    computeErrorStatistics root data indices (fun (_ : Fin 0) _ _ => (0 : K)) (fun _ => 0) =
      .ok statistics

/-- Every potential polynomial that can be fitted has the same statistics. -/
theorem fitted_statistics {s fitted : FXYSum K} (hs : s ∈ potentialPolynomials)
    (h : s.approximate solve root data indices = .ok fitted) :
    HasZeroStatistics root data indices fitted := by
  obtain ⟨points, statistics, -, -, hstatistics, rfl⟩ := approximate_eq_ok.mp h
  rw [coefficients_zero hs, computeErrorStatistics_congr s.f fun (_ : Fin 0) _ _ => (0 : K)]
    at hstatistics
  exact ⟨statistics, rfl, hstatistics⟩

/-- The selected polynomial, if there is one, has these statistics. -/
theorem selectPolynomial_statistics {l : List (FXYSum K)} {best best' : BestPolynomial K}
    (hl : ∀ s ∈ l, s ∈ potentialPolynomials)
    (hbest : ∀ s ∈ best.polynomial, HasZeroStatistics root data indices s)
    (h : selectPolynomial solve root data indices l best = .ok best') :
    ∀ s ∈ best'.polynomial, HasZeroStatistics root data indices s := by
  -- the induction is on the polynomials left, with the best one so far
  induction l generalizing best with
  | nil =>
    cases h
    exact hbest
  | cons potential rest ih =>
    have hrest := fun s hs => hl s (List.mem_cons_of_mem potential hs)
    rw [selectPolynomial] at h
    split at h
    · split at h
      · rename_i fitted rmse maxError hfitted
        have hfit : ∀ s ∈ some fitted, HasZeroStatistics root data indices s := by
          refine Outcome.of_bind_eq_ok hfitted fun fitted' happroximate hrest s hs => ?_
          refine Outcome.of_bind_eq_ok hrest fun _ _ heq => ?_
          cases heq
          cases hs
          exact fitted_statistics (hl potential List.mem_cons_self) happroximate
        dsimp only at h
        split at h
        · cases h
          exact hfit
        · refine ih hrest ?_ h
          split
          · exact hfit
          · exact hbest
      · exact ih hrest hbest h
      · cases h
    · exact ih hrest hbest h

/-- The selected polynomial has the least error, as all errors are the same. -/
theorem bestPolynomialLeast : BestPolynomialLeast solve root data indices := by
  intro best hbest potential hpotential fitted hfitted
  refine Outcome.of_bind_eq_ok hbest fun selection hselection h => ?_
  obtain ⟨⟨rmse, maxError⟩, hstatistics, hzero⟩ := selectPolynomial_statistics
    (fun s hs => hs) (fun s hs => by cases hs) hselection best (Outcome.ok.inj h)
  obtain ⟨statistics', hstatistics', hzero'⟩ := fitted_statistics hpotential hfitted
  rw [hzero, Outcome.ok.injEq] at hzero'
  subst hzero'
  refine ⟨rmse, maxError, rmse, maxError, ?_, ?_, le_refl rmse⟩
  · rw [FXYSum.getErrorStatistics, hstatistics]
  · rw [FXYSum.getErrorStatistics, hstatistics']

variable [IsStrictOrderedRing K]

/-- A sum whose coefficients are still zero is fitted only to data that it is orthogonal to. -/
theorem approximateFits_zero_iff (p : FitProblem K) (hc : p.sum.c = fun _ => 0) :
    ApproximateFits solve root p ↔
      ∀ i, (p.points.map fun q => q.z * p.sum.f i q.x q.y).sum = 0 := by
  rw [approximateFits_iff, hc, show (fun _ : Fin p.sum.numTerms => (0 : K)) = 0 from rfl,
    mulVec_zero]
  constructor
  · intro h i
    exact (congrFun h i).symm
  · intro h
    funext i
    exact (h i).symm

/-- The fit is the one of least squares, and the best polynomial the one of the least error,
exactly when the coefficients solved the normal equations before. -/
theorem approximate_leastSquares_iff (solve : Solver K) (root : SquareRoot K) (p : FitProblem K) :
    ApproximateFits solve root p ∧ BestPolynomialLeast solve root p.data p.indices ↔
      systemMatrix p.sum.f p.points *ᵥ p.sum.c = systemVector p.sum.f p.points := by
  rw [and_iff_left bestPolynomialLeast]
  exact approximateFits_iff p

end Best

/-! ### A constant -/

/-- The constant function, and one point of the given height. -/
def constantProblem (z : ℚ) : FitProblem ℚ where
  sum := polynomial [(0, 0)] 0 (by decide)
  data := [[0, 0, z]]
  indices := []
  points := [⟨0, 0, z⟩]
  reads := rfl
  invertible := by
    show (gramMatrix Finset.univ _ : Matrix (Fin 1) (Fin 1) ℚ).det ≠ 0
    rw [det_fin_one]
    simp [gramMatrix, basisAt, polynomial]

def rationalRoot : SquareRoot ℚ := ⟨Rat.sqrt, by decide +kernel⟩

/-- A constant is fitted to a point of height 0. -/
theorem approximate_leastSquares_iff_constant :
    ApproximateFits (fun _ _ b => b) rationalRoot (constantProblem 0) :=
  ((approximate_leastSquares_iff (fun _ _ b => b) rationalRoot (constantProblem 0)).mpr (by
    funext i
    fin_cases i
    decide +kernel)).1

/-- It is not fitted to a point of height 1: the coefficient stays 0. -/
theorem not_approximateFits_constant :
    ¬ ApproximateFits (fun _ _ b => b) rationalRoot (constantProblem 1) := by
  intro h
  have hzero := (approximateFits_zero_iff (constantProblem 1) rfl).mp h ⟨0, by decide⟩
  exact absurd hzero (by decide +kernel)

end Alus.SnapEngine
