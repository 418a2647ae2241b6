import Mathlib.LinearAlgebra.Matrix.Determinant.Basic
import Mathlib.LinearAlgebra.Matrix.NonsingularInverse
import Mathlib.Tactic.FieldSimp
import Mathlib.Tactic.LinearCombination
import Alus.Lib.Machine
import Alus.Lib.Numerals

/-!
# Three equations

`PolyUtils::Solve33` (`jlinda-core/utils/poly_utils.cc`) eliminates the unknowns of three linear
equations in their order, without an exchange of rows. So it divides by zero where a leading minor
of the matrix is zero, of a regular matrix too.

The arithmetic is exact. A quotient by zero is no number, and is `none`.
-/

namespace Alus.Coherence

open Alus.Lib Matrix

section Model

variable {R : Type} [Field R] [DecidableEq R]

/-- A quotient, which there is none of for zero. -/
def quotient (a b : R) : Option R := if b = 0 then none else some (a / b)

/-- The elimination and the two substitutions. -/
def eliminate (a : Matrix (Fin 3) (Fin 3) R) (rhs : Fin 3 → R) : Option (Fin 3 → R) := do
  -- used lower and upper matrix elements
  let l10 ← quotient (a 1 0) (a 0 0)
  let l20 ← quotient (a 2 0) (a 0 0)
  let u11 := a 1 1 - l10 * a 0 1
  let l21 ← quotient (a 2 1 - a 0 1 * l20) u11
  let u12 := a 1 2 - l10 * a 0 2
  let u22 := a 2 2 - l20 * a 0 2 - l21 * u12
  -- forward substitution
  let b0 := rhs 0
  let b1 := rhs 1 - b0 * l10
  let b2 := rhs 2 - b0 * l20 - b1 * l21
  -- backwards substitution
  let x2 ← quotient b2 u22
  let x1 ← quotient (b1 - u12 * x2) u11
  let x0 ← quotient (b0 - a 0 1 * x1 - a 0 2 * x2) (a 0 0)
  return ![x0, x1, x2]

omit [Field R] [DecidableEq R] in
/-- `a[i][j]`. -/
def element (a : List (List R)) (i j : Int) : Outcome R := do
  let row ← vectorIndex a i
  vectorIndex row j

/-- `PolyUtils::Solve33`. -/
def solve33 (a : List (List R)) (rhs : List R) : Outcome (Option (List R)) := do
  let first ← vectorAt a 0
  Outcome.require (first.length = 3 ∧ a.length = 3)
  Outcome.require (rhs.length = 3)
  let matrix := !![← element a 0 0, ← element a 0 1, ← element a 0 2;
    ← element a 1 0, ← element a 1 1, ← element a 1 2;
    ← element a 2 0, ← element a 2 1, ← element a 2 2]
  let rhs := ![← vectorIndex rhs 0, ← vectorIndex rhs 1, ← vectorIndex rhs 2]
  return (eliminate matrix rhs).map List.ofFn

end Model

/-! ## The leading minors -/

section Pivots

variable {R : Type} [Field R] [DecidableEq R] {a : Matrix (Fin 3) (Fin 3) R} {rhs x : Fin 3 → R}

/-- The leading minor of two rows and columns. -/
def minor (a : Matrix (Fin 3) (Fin 3) R) : R := a 0 0 * a 1 1 - a 0 1 * a 1 0

/-- The leading minors before the determinant are not zero. -/
def LeadingMinors (a : Matrix (Fin 3) (Fin 3) R) : Prop := a 0 0 ≠ 0 ∧ minor a ≠ 0

theorem quotient_eq_some {p q r : R} : quotient p q = some r ↔ q ≠ 0 ∧ p / q = r := by
  unfold quotient
  split
  · next h => simp [h]
  · next h => simp [h]

/-- `u_11`. -/
def secondPivot (a : Matrix (Fin 3) (Fin 3) R) : R := a 1 1 - a 1 0 / a 0 0 * a 0 1

/-- `u_22`. -/
def thirdPivot (a : Matrix (Fin 3) (Fin 3) R) : R :=
  a 2 2 - a 2 0 / a 0 0 * a 0 2 -
    (a 2 1 - a 0 1 * (a 2 0 / a 0 0)) / secondPivot a * (a 1 2 - a 1 0 / a 0 0 * a 0 2)

omit [DecidableEq R] in
theorem mul_secondPivot (h : a 0 0 ≠ 0) : a 0 0 * secondPivot a = minor a := by
  unfold secondPivot minor
  field_simp

omit [DecidableEq R] in
/-- The determinant is the product of the pivots. -/
theorem det_eq_pivots (h : a 0 0 ≠ 0) (h' : secondPivot a ≠ 0) :
    a.det = a 0 0 * secondPivot a * thirdPivot a := by
  have hpivot : a 1 1 = secondPivot a + a 1 0 / a 0 0 * a 0 1 := by
    unfold secondPivot
    ring
  rw [det_fin_three, thirdPivot, hpivot]
  field_simp
  ring

/-- What the elimination finds satisfies the equations. -/
theorem mulVec_of_eliminate (h : eliminate a rhs = some x) :
    a 0 0 ≠ 0 ∧ secondPivot a ≠ 0 ∧ thirdPivot a ≠ 0 ∧ a *ᵥ x = rhs := by
  simp only [eliminate, bind, Option.bind_eq_some_iff, quotient_eq_some] at h
  obtain ⟨l10, ⟨h00, hl10⟩, l20, ⟨-, hl20⟩, l21, ⟨hu11, hl21⟩, x2, ⟨hu22, hx2⟩, x1, ⟨-, hx1⟩,
    x0, ⟨-, hx0⟩, hx⟩ := h
  have hsecond : secondPivot a = a 1 1 - l10 * a 0 1 := by rw [secondPivot, hl10]
  have hthird : thirdPivot a = a 2 2 - l20 * a 0 2 - l21 * (a 1 2 - l10 * a 0 2) := by
    rw [thirdPivot, hsecond, hl10, hl20, hl21]
  refine ⟨h00, hsecond ▸ hu11, hthird ▸ hu22, ?_⟩
  rw [div_eq_iff h00] at hl10 hl20 hx0
  rw [div_eq_iff hu11] at hl21 hx1
  rw [div_eq_iff hu22] at hx2
  obtain rfl : ![x0, x1, x2] = x := Option.some.inj hx
  have hrow (i : Fin 3) : (a *ᵥ ![x0, x1, x2]) i = a i 0 * x0 + a i 1 * x1 + a i 2 * x2 := by
    simp only [mulVec, dotProduct, Fin.sum_univ_three, cons_val_zero, cons_val_one, cons_val_two,
      head_cons, tail_cons]
  funext i
  rw [hrow]
  match i with
  | 0 => linear_combination -hx0
  | 1 => linear_combination -l10 * hx0 - hx1 + x0 * hl10
  | 2 => linear_combination -l20 * hx0 - l21 * hx1 - hx2 + x0 * hl20 + x1 * hl21

/-- It finds something where it divides by no zero. -/
theorem exists_eliminate (h00 : a 0 0 ≠ 0) (h11 : secondPivot a ≠ 0) (h22 : thirdPivot a ≠ 0)
    (rhs : Fin 3 → R) : ∃ x, eliminate a rhs = some x := by
  unfold secondPivot at h11
  unfold thirdPivot secondPivot at h22
  simp only [eliminate, quotient, if_neg h00, if_neg h11, if_neg h22, Option.bind_eq_bind,
    Option.bind_some]
  exact ⟨_, rfl⟩

/-- The elimination of the equations of a regular matrix divides by no zero exactly where the
leading minors are not zero. -/
theorem exists_eliminate_iff (hdet : a.det ≠ 0) (rhs : Fin 3 → R) :
    (∃ x, eliminate a rhs = some x) ↔ LeadingMinors a := by
  constructor
  · intro ⟨x, hx⟩
    obtain ⟨h00, h11, -, -⟩ := mulVec_of_eliminate hx
    exact ⟨h00, mul_secondPivot h00 ▸ mul_ne_zero h00 h11⟩
  · intro ⟨h00, hminor⟩
    rw [← mul_secondPivot h00] at hminor
    have h11 := right_ne_zero_of_mul hminor
    rw [det_eq_pivots h00 h11] at hdet
    exact exists_eliminate h00 h11 (right_ne_zero_of_mul hdet) rhs

omit [DecidableEq R] in
/-- A regular matrix has one solution at most. -/
theorem mulVec_unique {y : Fin 3 → R} (hdet : a.det ≠ 0) (hx : a *ᵥ x = rhs) (hy : a *ᵥ y = rhs) :
    x = y :=
  mulVec_injective_of_isUnit ((isUnit_iff_isUnit_det a).mpr hdet.isUnit) (hx.trans hy.symm)

/-- The rows of a matrix. -/
def rows (a : Matrix (Fin 3) (Fin 3) R) : List (List R) := List.ofFn fun i => List.ofFn (a i)

/-- `Solve33` of a matrix of three rows and columns. -/
theorem solve33_rows (a : Matrix (Fin 3) (Fin 3) R) (rhs : Fin 3 → R) :
    solve33 (rows a) (List.ofFn rhs) = .ok ((eliminate a rhs).map List.ofFn) := by
  have hmatrix : !![a 0 0, a 0 1, a 0 2; a 1 0, a 1 1, a 1 2; a 2 0, a 2 1, a 2 2] = a :=
    (eta_fin_three a).symm
  have hrhs : ![rhs 0, rhs 1, rhs 2] = rhs := by
    funext i
    fin_cases i <;> rfl
  show Outcome.ok ((eliminate !![a 0 0, a 0 1, a 0 2; a 1 0, a 1 1, a 1 2; a 2 0, a 2 1, a 2 2]
    ![rhs 0, rhs 1, rhs 2]).map List.ofFn) = _
  rw [hmatrix, hrhs]

end Pivots

end Alus.Coherence
