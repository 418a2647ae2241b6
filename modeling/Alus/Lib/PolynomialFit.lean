import Mathlib.Algebra.Polynomial.Eval.Degree
import Mathlib.LinearAlgebra.Matrix.NonsingularInverse
import Mathlib.LinearAlgebra.Vandermonde
import Alus.Lib.LeastSquares

/-!
# Fitting polynomials

The design matrix whose rows are the powers of the abscissas has full column rank where enough
abscissas differ. So a least squares solution for samples of a polynomial of low degree is the list
of its coefficients, and the Horner scheme gives its values.
-/

namespace Alus.Lib

open Matrix Polynomial

variable {R : Type*} [Field R] {m n : Nat}

/-- The powers of the abscissas, a row for each. -/
def powersMatrix (t : Fin m → R) (n : Nat) : Matrix (Fin m) (Fin n) R := fun i j => t i ^ (j : Nat)

/-- The Horner scheme, from the last coefficient to the first. -/
def horner (x : R) (coeffs : List R) : R := coeffs.foldr (fun coeff value => value * x + coeff) 0

theorem horner_ofFn (x : R) (c : Fin n → R) :
    horner x (List.ofFn c) = ∑ j, c j * x ^ (j : Nat) := by
  induction n with
  | zero => rfl
  | succ n ih =>
    have hrest := ih fun j => c j.succ
    rw [List.ofFn_succ, Fin.sum_univ_succ]
    show horner x (List.ofFn fun j => c j.succ) * x + c 0 = _
    rw [hrest, Finset.sum_mul, Fin.val_zero, pow_zero, mul_one, add_comm]
    refine congrArg (c 0 + ·) (Finset.sum_congr rfl fun j _ => ?_)
    rw [Fin.val_succ, pow_succ, mul_assoc]

/-- The coefficients of a polynomial, evaluated. -/
theorem horner_coeff {p : R[X]} (hp : p.natDegree < n) (x : R) :
    horner x (List.ofFn fun j : Fin n => p.coeff j) = p.eval x := by
  rw [horner_ofFn, eval_eq_sum_range' hp, Finset.sum_range fun j => p.coeff j * x ^ j]

/-- The design matrix takes the coefficients of a polynomial to its samples. -/
theorem powersMatrix_mulVec_coeff (t : Fin m → R) {p : R[X]} (hp : p.natDegree < n) :
    (powersMatrix t n *ᵥ fun j => p.coeff j) = fun i => p.eval (t i) := by
  funext i
  show ∑ j : Fin n, t i ^ (j : Nat) * p.coeff j = p.eval (t i)
  rw [eval_eq_sum_range' hp, Finset.sum_range fun j => p.coeff j * t i ^ j]
  exact Finset.sum_congr rfl fun j _ => mul_comm _ _

/-- Different abscissas, as many as there are columns. -/
theorem injective_powersMatrix {t : Fin m → R} (ht : Function.Injective t) (hle : n ≤ m) :
    Function.Injective (powersMatrix t n).mulVec := by
  refine (injective_iff_map_eq_zero (powersMatrix t n).mulVecLin).mpr fun c hc => ?_
  refine eq_zero_of_forall_index_sum_pow_mul_eq_zero (f := fun j => t (Fin.castLE hle j))
    (fun j k hjk => Fin.castLE_injective hle (ht hjk)) fun j => ?_
  exact congrFun hc (Fin.castLE hle j)

variable [LinearOrder R] [IsStrictOrderedRing R]

/-- **Polynomials are reproduced**: a solution of the normal equations for samples of a polynomial
is the list of its coefficients. -/
theorem eq_coeff_of_normalEquations {t : Fin m → R} (ht : Function.Injective t) (hle : n ≤ m)
    {p : R[X]} (hp : p.natDegree < n) {r : Fin n → R}
    (hr : ((powersMatrix t n)ᵀ * powersMatrix t n) *ᵥ r =
      (powersMatrix t n)ᵀ *ᵥ fun i => p.eval (t i)) : r = fun j : Fin n => p.coeff j := by
  rw [← powersMatrix_mulVec_coeff t hp] at hr
  exact normalEquations_unique (injective_powersMatrix ht hle) hr

/-- The solution of the normal equations by the inverse matrix. -/
noncomputable def normalSolution (A : Matrix (Fin m) (Fin n) R) (y : Fin m → R) : Fin n → R :=
  (Aᵀ * A)⁻¹ *ᵥ (Aᵀ *ᵥ y)

theorem mulVec_normalSolution {A : Matrix (Fin m) (Fin n) R} (hA : Function.Injective A.mulVec)
    (y : Fin m → R) : (Aᵀ * A) *ᵥ normalSolution A y = Aᵀ *ᵥ y := by
  have hunit : IsUnit (Aᵀ * A) := mulVec_injective_iff_isUnit.mp (injective_transpose_mul_self hA)
  rw [normalSolution, mulVec_mulVec, mul_nonsing_inv _ ((isUnit_iff_isUnit_det _).mp hunit),
    one_mulVec]

end Alus.Lib
