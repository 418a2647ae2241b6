import Mathlib.Analysis.Calculus.Deriv.Add
import Mathlib.Analysis.Calculus.Deriv.Mul
import Mathlib.Analysis.Calculus.Deriv.Pow
import Mathlib.Analysis.Calculus.Deriv.Comp
import Mathlib.Topology.Algebra.Module.ModuleTopology
import Alus.Lib.PolynomialFit

/-!
# Sums of powers and their derivatives

A list of coefficients stands for a polynomial, whose value, first and second derivative are sums
over its places. The Horner scheme gives the value, and the sums are each other's derivatives.
-/

namespace Alus.Lib

section Sums

variable {R : Type*} [Field R]

/-- The value of a polynomial. -/
def powerSum (coeffs : List R) (x : R) : R :=
  ∑ i ∈ Finset.range coeffs.length, coeffs.getD i 0 * x ^ i

/-- The first derivative. -/
def powerSumDot (coeffs : List R) (x : R) : R :=
  ∑ i ∈ Finset.range coeffs.length, coeffs.getD i 0 * (i * x ^ (i - 1))

/-- The second derivative. -/
def powerSumDotDot (coeffs : List R) (x : R) : R :=
  ∑ i ∈ Finset.range coeffs.length, coeffs.getD i 0 * ((i - 1) * i * x ^ (i - 2))

theorem horner_eq_powerSum (x : R) (coeffs : List R) : horner x coeffs = powerSum coeffs x := by
  induction coeffs with
  | nil => rfl
  | cons c coeffs ih =>
    have hrest : ∀ i ∈ Finset.range coeffs.length,
        (c :: coeffs).getD (i + 1) 0 * x ^ (i + 1) = coeffs.getD i 0 * x ^ i * x := by
      intro i _
      rw [List.getD_cons_succ, pow_succ, mul_assoc]
    have hcons : horner x (c :: coeffs) = horner x coeffs * x + c := rfl
    rw [hcons, ih, powerSum, powerSum, List.length_cons, Finset.sum_range_succ',
      Finset.sum_congr rfl hrest, Finset.sum_mul, List.getD_cons_zero, pow_zero, mul_one]

/-- The places from the second power on. -/
theorem sum_map_fromTwo (f : Nat → R) (n : Nat) :
    ((List.range' 2 n).map f).sum = ∑ i ∈ Finset.range n, f (i + 2) := by
  induction n with
  | zero => rfl
  | succ n ih =>
    rw [List.range'_concat, List.map_append, List.sum_append, ih, Finset.sum_range_succ,
      List.map_singleton, List.sum_singleton, Nat.one_mul, Nat.add_comm 2 n]

/-- A sum that starts with the coefficient of the first power. -/
theorem powerSumDot_eq {coeffs : List R} {degree : Nat} (hlength : coeffs.length = degree + 1)
    (hdegree : 1 ≤ degree) (x : R) :
    powerSumDot coeffs x = coeffs.getD 1 0 +
      ((List.range' 2 (degree - 1)).map fun (i : Nat) =>
        coeffs.getD i 0 * (i * x ^ (i - 1))).sum := by
  obtain ⟨n, rfl⟩ := Nat.exists_eq_add_of_le' hdegree
  rw [powerSumDot, hlength, Finset.sum_range_succ', Finset.sum_range_succ', Nat.add_sub_cancel,
    sum_map_fromTwo, Nat.cast_zero, zero_mul, mul_zero, add_zero, zero_add, Nat.cast_one, pow_zero,
    mul_one, mul_one, add_comm]
  rfl

/-- And one that starts with the coefficient of the second power. -/
theorem powerSumDotDot_eq {coeffs : List R} {degree : Nat} (hlength : coeffs.length = degree + 1)
    (hdegree : 1 ≤ degree) (x : R) :
    powerSumDotDot coeffs x = ((List.range' 2 (degree - 1)).map fun (i : Nat) =>
      coeffs.getD i 0 * ((i - 1) * i * x ^ (i - 2))).sum := by
  obtain ⟨n, rfl⟩ := Nat.exists_eq_add_of_le' hdegree
  rw [powerSumDotDot, hlength, Finset.sum_range_succ', Finset.sum_range_succ', Nat.add_sub_cancel,
    sum_map_fromTwo, Nat.cast_zero, mul_zero, zero_mul, mul_zero, add_zero, zero_add, Nat.cast_one,
    sub_self, zero_mul, zero_mul, mul_zero, add_zero]

end Sums

section Derivatives

variable {𝕜 : Type*} [NontriviallyNormedField 𝕜] (coeffs : List 𝕜)

theorem hasDerivAt_powerSum (x : 𝕜) :
    HasDerivAt (powerSum coeffs) (powerSumDot coeffs x) x := by
  apply HasDerivAt.fun_sum
  intro i _
  exact (hasDerivAt_pow i x).const_mul (coeffs.getD i 0)

theorem hasDerivAt_powerSumDot (x : 𝕜) :
    HasDerivAt (powerSumDot coeffs) (powerSumDotDot coeffs x) x := by
  apply HasDerivAt.fun_sum
  intro i _
  have hterm := ((hasDerivAt_pow (i - 1) x).const_mul (i : 𝕜)).const_mul (coeffs.getD i 0)
  have hfactor : (i : 𝕜) * (((i - 1 : Nat) : 𝕜) * x ^ (i - 1 - 1)) =
      (i - 1) * i * x ^ (i - 2) := by
    cases i with
    | zero => rw [Nat.cast_zero, zero_mul, mul_zero, zero_mul]
    | succ i =>
      rw [Nat.add_sub_cancel, Nat.cast_succ, add_sub_cancel_right, ← mul_assoc,
        mul_comm ((i : 𝕜) + 1)]
      rfl
  rwa [hfactor] at hterm

/-- In a time that is counted in other units from another start, the derivative is that in the
unit. -/
theorem hasDerivAt_normalized {f : 𝕜 → 𝕜} {f' start unit t : 𝕜}
    (h : HasDerivAt f f' ((t - start) / unit)) :
    HasDerivAt (fun t => f ((t - start) / unit)) (f' / unit) t := by
  have htime : HasDerivAt (fun t => (t - start) / unit) (1 / unit) t :=
    ((hasDerivAt_id t).sub_const start).div_const unit
  have hcomp := h.comp t htime
  rwa [mul_one_div] at hcomp

end Derivatives

end Alus.Lib
