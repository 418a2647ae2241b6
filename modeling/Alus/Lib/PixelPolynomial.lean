import Mathlib.Algebra.Polynomial.Div
import Mathlib.RingTheory.Polynomial.Pochhammer

/-!
# Polynomials on the pixels of a line

A polynomial that is sampled at the pixels `0, 1, .., n - 1` is known up to multiples of
`X (X - 1) .. (X - n + 1)`, the falling factorial of length `n`. Two polynomials of degree below
`n` with the same samples are equal.
-/

namespace Alus.Lib

open Polynomial

section Domain

variable {R : Type*} [CommRing R] [IsDomain R] [CharZero R]

/-- A polynomial vanishes at the pixels of a line when the falling factorial divides it. -/
theorem descPochhammer_dvd_iff {n : ℕ} {p : R[X]} :
    descPochhammer R n ∣ p ↔ ∀ x < n, p.eval (x : R) = 0 := by
  induction n generalizing p with
  | zero =>
    rw [descPochhammer_zero]
    exact ⟨fun _ x hx => absurd hx (Nat.not_lt_zero x), fun _ => one_dvd p⟩
  | succ n ih =>
    rw [descPochhammer_succ_right, ← C_eq_natCast]
    refine ⟨fun hdvd x hx => ?_, fun hzero => ?_⟩
    · obtain ⟨q, rfl⟩ := hdvd
      rcases Nat.lt_succ_iff_lt_or_eq.mp hx with hlt | rfl
      · rw [mul_assoc, eval_mul, ih.mp (dvd_refl _) x hlt, zero_mul]
      · rw [eval_mul, eval_mul, eval_sub, eval_X, eval_C, sub_self, mul_zero, zero_mul]
    · obtain ⟨q, rfl⟩ := ih.mpr fun x hx => hzero x (Nat.lt_succ_of_lt hx)
      -- the earlier pixels leave `n!` at the new one, so the cofactor vanishes there
      have hfactorial : (descPochhammer R n).eval (n : R) ≠ 0 := by
        rw [descPochhammer_eval_eq_descFactorial, Nat.descFactorial_self]
        exact Nat.cast_ne_zero.mpr (Nat.factorial_ne_zero n)
      have hroot : q.eval (n : R) = 0 := by
        have hlast := hzero n (Nat.lt_succ_self n)
        rw [eval_mul] at hlast
        exact (mul_eq_zero.mp hlast).resolve_left hfactorial
      exact mul_dvd_mul_left _ (dvd_iff_isRoot.mpr hroot)

theorem descPochhammer_dvd_sub_iff {n : ℕ} {p q : R[X]} :
    descPochhammer R n ∣ p - q ↔ ∀ x < n, p.eval (x : R) = q.eval (x : R) := by
  rw [descPochhammer_dvd_iff]
  exact forall₂_congr fun x _ => by rw [eval_sub, sub_eq_zero]

/-- On a line longer than the degree only the polynomial itself has its samples. -/
theorem eq_of_descPochhammer_dvd_sub {n : ℕ} {p q : R[X]} (hdvd : descPochhammer R n ∣ p - q)
    (hp : p.degree < n) (hq : q.degree < n) : p = q := by
  have hmonic : (descPochhammer R n).degree = n := by
    rw [degree_eq_natDegree (monic_descPochhammer R n).ne_zero, descPochhammer_natDegree]
  refine sub_eq_zero.mp (eq_zero_of_dvd_of_degree_lt hdvd ?_)
  rw [hmonic]
  exact (degree_sub_le p q).trans_lt (max_lt hp hq)

end Domain

end Alus.Lib
