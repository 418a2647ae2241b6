import Mathlib.Algebra.BigOperators.Field
import Mathlib.Algebra.Order.BigOperators.Ring.Finset
import Mathlib.Algebra.Order.Field.Basic
import Mathlib.LinearAlgebra.Matrix.Determinant.Basic
import Mathlib.LinearAlgebra.Matrix.Rank
import Mathlib.Tactic.Linarith
import Mathlib.Tactic.LinearCombination

/-!
# Least squares

A line through points has the least sum of squared residuals exactly when it solves the normal
equations. They have one solution unless all points lie over one abscissa, which is the equality
case of the Cauchy-Schwarz inequality for the abscissas.

A combination of functions whose residuals are orthogonal to all of the functions has the least
sum of squared residuals as well, and fits what some combination fits.
-/

namespace Alus.Lib

open Finset

variable {ι T : Type*} [Field T] (s : Finset ι) (x y : ι → T)

/-- The sum of the squared residuals of the line `a + b x`. -/
def residual (a b : T) : T := ∑ i ∈ s, (y i - (a + b * x i)) ^ 2

/-- The line `a + b x` solves the normal equations. -/
structure NormalEquations (a b : T) : Prop where
  intercept : a * #s + b * ∑ i ∈ s, x i = ∑ i ∈ s, y i
  slope : a * ∑ i ∈ s, x i + b * ∑ i ∈ s, x i ^ 2 = ∑ i ∈ s, x i * y i

/-- The determinant of the normal equations. -/
def normalDet : T := #s * ∑ i ∈ s, x i ^ 2 - (∑ i ∈ s, x i) ^ 2

/-- No line has smaller squared residuals. -/
def IsLeastSquares [LE T] (a b : T) : Prop :=
  ∀ a' b', residual s x y a b ≤ residual s x y a' b'

variable {s x y} {a b : T}

/-- The residuals of a solution of the normal equations are orthogonal to the lines. -/
theorem NormalEquations.residual_eq (h : NormalEquations s x y a b) (a' b' : T) :
    residual s x y a' b' =
      residual s x y a b + ∑ i ∈ s, ((a - a') + (b - b') * x i) ^ 2 := by
  have hsplit : ∀ i ∈ s, (y i - (a' + b' * x i)) ^ 2 = (y i - (a + b * x i)) ^ 2 +
      ((a - a') + (b - b') * x i) ^ 2 + 2 * ((a - a') * (y i - a - b * x i) +
        (b - b') * (x i * y i - a * x i - b * x i ^ 2)) := fun i _ => by
    ring
  have hconst : ∑ i ∈ s, (y i - a - b * x i) = 0 := by
    rw [sum_sub_distrib, sum_sub_distrib, sum_const, ← mul_sum, nsmul_eq_mul]
    linear_combination -h.intercept
  have hlinear : ∑ i ∈ s, (x i * y i - a * x i - b * x i ^ 2) = 0 := by
    rw [sum_sub_distrib, sum_sub_distrib, ← mul_sum, ← mul_sum]
    linear_combination -h.slope
  rw [residual, sum_congr rfl hsplit, sum_add_distrib, sum_add_distrib, ← mul_sum,
    sum_add_distrib, ← mul_sum, ← mul_sum, hconst, hlinear, residual]
  ring

/-- The solution of the normal equations. -/
theorem normalEquations_of_det (hdet : normalDet s x ≠ 0)
    (hslope : b * normalDet s x = #s * ∑ i ∈ s, x i * y i - (∑ i ∈ s, x i) * ∑ i ∈ s, y i)
    (hintercept : a * normalDet s x =
      (∑ i ∈ s, x i ^ 2) * ∑ i ∈ s, y i - (∑ i ∈ s, x i) * ∑ i ∈ s, x i * y i) :
    NormalEquations s x y a b := by
  constructor
  · refine mul_right_cancel₀ hdet ?_
    rw [normalDet] at *
    linear_combination (#s : T) * hintercept + (∑ i ∈ s, x i) * hslope
  · refine mul_right_cancel₀ hdet ?_
    rw [normalDet] at *
    linear_combination (∑ i ∈ s, x i) * hintercept + (∑ i ∈ s, x i ^ 2) * hslope

variable [LinearOrder T] [IsStrictOrderedRing T]

/-- **Cauchy-Schwarz with equality**: the determinant vanishes exactly when all abscissas agree. -/
theorem normalDet_eq_zero_iff (hs : s.Nonempty) :
    normalDet s x = 0 ↔ ∀ i ∈ s, ∀ j ∈ s, x i = x j := by
  have hcard : (0 : T) < #s := by exact_mod_cast hs.card_pos
  -- the determinant is the sum of the squared distances from the mean, up to a factor
  obtain ⟨mean, hmean⟩ : ∃ mean : T, mean * #s = ∑ i ∈ s, x i :=
    ⟨(∑ i ∈ s, x i) / #s, div_mul_cancel₀ _ hcard.ne'⟩
  have hdet : normalDet s x = #s * ∑ i ∈ s, (x i - mean) ^ 2 := by
    have hsplit : ∀ i ∈ s, (x i - mean) ^ 2 = x i ^ 2 - 2 * mean * x i + mean ^ 2 := fun i _ => by
      ring
    rw [sum_congr rfl hsplit, sum_add_distrib, sum_sub_distrib, ← mul_sum, sum_const,
      nsmul_eq_mul, ← hmean, normalDet, ← hmean]
    ring
  rw [hdet, mul_eq_zero, or_iff_right hcard.ne',
    sum_eq_zero_iff_of_nonneg fun i _ => sq_nonneg (x i - mean)]
  constructor
  · intro h i hi j hj
    have hx : ∀ k ∈ s, x k = mean := fun k hk => sub_eq_zero.mp (pow_eq_zero_iff two_ne_zero |>.mp
      (h k hk))
    rw [hx i hi, hx j hj]
  · intro h i hi
    have hsum : ∑ j ∈ s, x j = #s * x i := by
      rw [sum_congr rfl fun j hj => h j hj i hi, sum_const, nsmul_eq_mul]
    have hsame : x i = mean := by
      refine mul_left_cancel₀ hcard.ne' ?_
      rw [← hsum, ← hmean, mul_comm]
    rw [hsame, sub_self]
    exact zero_pow two_ne_zero

/-- **The least squares line**: with two different abscissas, the solution of the normal equations
is the one line of least squared residuals. -/
theorem NormalEquations.isLeastSquares_iff (h : NormalEquations s x y a b) {i j : ι} (hi : i ∈ s)
    (hj : j ∈ s) (hne : x i ≠ x j) {a' b' : T} :
    IsLeastSquares s x y a' b' ↔ a' = a ∧ b' = b := by
  constructor
  · intro hleast
    have hle := hleast a b
    rw [h.residual_eq a' b'] at hle
    have hnonneg : ∀ k ∈ s, 0 ≤ ((a - a') + (b - b') * x k) ^ 2 := fun k _ => sq_nonneg _
    have hzero : ∑ k ∈ s, ((a - a') + (b - b') * x k) ^ 2 = 0 :=
      le_antisymm (by linarith) (sum_nonneg hnonneg)
    rw [sum_eq_zero_iff_of_nonneg hnonneg] at hzero
    have hki := (pow_eq_zero_iff two_ne_zero).mp (hzero i hi)
    have hkj := (pow_eq_zero_iff two_ne_zero).mp (hzero j hj)
    have hslope : (b - b') * (x i - x j) = 0 := by
      linear_combination hki - hkj
    have hb : b - b' = 0 := (mul_eq_zero.mp hslope).resolve_right (sub_ne_zero.mpr hne)
    rw [hb, zero_mul, add_zero] at hki
    exact ⟨(sub_eq_zero.mp hki).symm, (sub_eq_zero.mp hb).symm⟩
  · rintro ⟨rfl, rfl⟩ a' b'
    rw [h.residual_eq a' b']
    exact le_add_of_nonneg_right (sum_nonneg fun k _ => sq_nonneg _)

/-! ## Combinations of functions -/

section Combination

open Matrix

variable {ι κ T : Type*} [Fintype κ] [Field T]

/-- The combination of the functions `f` with the coefficients `c`. -/
def combination (f : κ → ι → T) (c : κ → T) (i : ι) : T := ∑ k, c k * f k i

/-- The sum of the squared residuals of a combination. -/
def squaredError (s : Finset ι) (f : κ → ι → T) (z : ι → T) (c : κ → T) : T :=
  ∑ i ∈ s, (combination f c i - z i) ^ 2

/-- The residuals of the combination are orthogonal to all functions. -/
def ResidualOrthogonal (s : Finset ι) (f : κ → ι → T) (z : ι → T) (c : κ → T) : Prop :=
  ∀ k, ∑ i ∈ s, (combination f c i - z i) * f k i = 0

/-- The matrix of the normal equations. -/
def gramMatrix (s : Finset ι) (f : κ → ι → T) : Matrix κ κ T :=
  fun k l => ∑ i ∈ s, f k i * f l i

/-- The right side of the normal equations. -/
def gramVector (s : Finset ι) (f : κ → ι → T) (z : ι → T) (k : κ) : T := ∑ i ∈ s, z i * f k i

variable {s : Finset ι} {f : κ → ι → T} {z : ι → T} {c c' : κ → T}

/-- The solutions of the normal equations are the combinations with orthogonal residuals. -/
theorem gramMatrix_mulVec_eq_iff :
    gramMatrix s f *ᵥ c = gramVector s f z ↔ ResidualOrthogonal s f z c := by
  have hrow : ∀ k, (gramMatrix s f *ᵥ c) k - gramVector s f z k =
      ∑ i ∈ s, (combination f c i - z i) * f k i := by
    intro k
    have hcomm : (gramMatrix s f *ᵥ c) k = ∑ i ∈ s, combination f c i * f k i := by
      show ∑ l, (∑ i ∈ s, f k i * f l i) * c l = ∑ i ∈ s, (∑ l, c l * f l i) * f k i
      simp only [Finset.sum_mul]
      rw [Finset.sum_comm]
      exact Finset.sum_congr rfl fun i _ => Finset.sum_congr rfl fun l _ => by ring
    rw [hcomm, gramVector, ← Finset.sum_sub_distrib]
    exact Finset.sum_congr rfl fun i _ => by ring
  constructor
  · intro h k
    rw [← hrow k, h, sub_self]
  · intro h
    funext k
    exact sub_eq_zero.mp ((hrow k).trans (h k))

/-- Another combination is off by what the two differ, too. -/
theorem ResidualOrthogonal.squaredError_eq (h : ResidualOrthogonal s f z c) (c' : κ → T) :
    squaredError s f z c' =
      squaredError s f z c + ∑ i ∈ s, (combination f c' i - combination f c i) ^ 2 := by
  have hcross : ∑ i ∈ s, (combination f c i - z i) * (combination f c' i - combination f c i) =
      0 := by
    have hdiff : ∀ i, combination f c' i - combination f c i = ∑ k, (c' k - c k) * f k i := by
      intro i
      simp only [combination, sub_mul, Finset.sum_sub_distrib]
    calc ∑ i ∈ s, (combination f c i - z i) * (combination f c' i - combination f c i)
        = ∑ i ∈ s, ∑ k, (c' k - c k) * ((combination f c i - z i) * f k i) := by
          refine Finset.sum_congr rfl fun i _ => ?_
          rw [hdiff, Finset.mul_sum]
          exact Finset.sum_congr rfl fun k _ => by ring
      _ = ∑ k, (c' k - c k) * ∑ i ∈ s, (combination f c i - z i) * f k i := by
          rw [Finset.sum_comm]
          exact Finset.sum_congr rfl fun k _ => (Finset.mul_sum _ _ _).symm
      _ = 0 := Finset.sum_eq_zero fun k _ => by rw [h k, mul_zero]
  have hsplit : ∀ i ∈ s, (combination f c' i - z i) ^ 2 = (combination f c i - z i) ^ 2 +
      (combination f c' i - combination f c i) ^ 2 +
      2 * ((combination f c i - z i) * (combination f c' i - combination f c i)) := fun i _ => by
    ring
  rw [squaredError, Finset.sum_congr rfl hsplit, Finset.sum_add_distrib, Finset.sum_add_distrib,
    ← Finset.mul_sum, hcross, mul_zero, add_zero, squaredError]

variable [LinearOrder T] [IsStrictOrderedRing T]

/-- No combination has smaller squared residuals. -/
theorem ResidualOrthogonal.squaredError_le (h : ResidualOrthogonal s f z c) (c' : κ → T) :
    squaredError s f z c ≤ squaredError s f z c' := by
  rw [h.squaredError_eq c']
  exact le_add_of_nonneg_right (Finset.sum_nonneg fun i _ => sq_nonneg _)

/-- What some combination fits is fitted. -/
theorem ResidualOrthogonal.fits (h : ResidualOrthogonal s f z c)
    (hc' : ∀ i ∈ s, combination f c' i = z i) : ∀ i ∈ s, combination f c i = z i := by
  have hzero : squaredError s f z c' = 0 :=
    Finset.sum_eq_zero fun i hi => by rw [hc' i hi, sub_self, zero_pow two_ne_zero]
  have herror : squaredError s f z c = 0 :=
    le_antisymm (hzero ▸ h.squaredError_le c') (Finset.sum_nonneg fun i _ => sq_nonneg _)
  intro i hi
  have hterm := (Finset.sum_eq_zero_iff_of_nonneg fun i _ => sq_nonneg _).mp herror i hi
  exact sub_eq_zero.mp ((pow_eq_zero_iff two_ne_zero).mp hterm)

end Combination

/-! ## Full column rank -/

section Rank

open Matrix

variable {m n T : Type*} [Fintype m] [Fintype n] [Field T] [LinearOrder T] [IsStrictOrderedRing T]
  {A : Matrix m n T}

/-- The matrix of the normal equations is injective where the design matrix is. -/
theorem injective_transpose_mul_self (hA : Function.Injective A.mulVec) :
    Function.Injective (Aᵀ * A).mulVec := by
  have hker : LinearMap.ker (Aᵀ * A).mulVecLin = ⊥ := by
    rw [ker_mulVecLin_transpose_mul_self]
    exact LinearMap.ker_eq_bot.mpr hA
  exact LinearMap.ker_eq_bot.mp hker

/-- What the design matrix takes to the samples is the only solution. -/
theorem normalEquations_unique (hA : Function.Injective A.mulVec) {r c : n → T}
    (h : (Aᵀ * A) *ᵥ r = Aᵀ *ᵥ (A *ᵥ c)) : r = c := by
  refine injective_transpose_mul_self hA ?_
  rw [h, mulVec_mulVec]

end Rank

end Alus.Lib
