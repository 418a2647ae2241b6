import Mathlib.Algebra.BigOperators.Group.Finset.Piecewise
import Mathlib.Algebra.Order.Field.Basic
import Mathlib.Tactic.Linarith
import Mathlib.Tactic.Ring
import Alus.Lib.Numerals

/-!
# Integrals of piecewise constant functions

A row of `n` values is a function on `[0, n)` that is constant on each cell `[i, i + 1)`. Its
integral over an interval adds up the values, each times the length of the part of its cell that
lies in the interval.
-/

namespace Alus.Lib

section AreaIntegral

variable {F : Type*} [Field F] [LinearOrder F] [IsStrictOrderedRing F] {a b : F} {i n : Nat}

/-- The length of the part of `[i, i + 1)` that lies in `[a, b)`. -/
def cellLength (a b : F) (i : Nat) : F := max 0 (min b (i + 1) - max a i)

def areaIntegral (row : Nat → F) (n : Nat) (a b : F) : F :=
  ∑ i ∈ Finset.range n, row i * cellLength a b i

theorem cellLength_eq_zero_of_le (h : (i : F) + 1 ≤ a) : cellLength a b i = 0 := by
  have hend : min b ((i : F) + 1) ≤ i + 1 := min_le_right _ _
  have hstart : a ≤ max a (i : F) := le_max_left _ _
  exact max_eq_left (by linarith)

theorem cellLength_eq_zero_of_ge (h : b ≤ i) : cellLength a b i = 0 := by
  have hend : min b ((i : F) + 1) ≤ b := min_le_left _ _
  have hstart : (i : F) ≤ max a (i : F) := le_max_right _ _
  exact max_eq_left (by linarith)

/-- An interval within a cell. -/
theorem areaIntegral_cell (row : Nat → F) (hi : i < n) (hlow : (i : F) ≤ a) (hab : a ≤ b)
    (hhigh : b ≤ i + 1) : areaIntegral row n a b = row i * (b - a) := by
  rw [areaIntegral, Finset.sum_eq_single i]
  · rw [cellLength, min_eq_left hhigh, max_eq_left hlow, max_eq_right (sub_nonneg.mpr hab)]
  · intro j _ hne
    rcases Nat.lt_or_gt_of_ne hne with hlt | hgt
    · have hcell : (j : F) + 1 ≤ i := by exact_mod_cast hlt
      rw [cellLength_eq_zero_of_le (hcell.trans hlow), mul_zero]
    · have hcell : (i : F) + 1 ≤ j := by exact_mod_cast hgt
      rw [cellLength_eq_zero_of_ge (hhigh.trans hcell), mul_zero]
  · intro hout
    exact absurd (Finset.mem_range.mpr hi) hout

/-- An interval over the border of two cells. -/
theorem areaIntegral_cells (row : Nat → F) (hi : i + 1 < n) (hlow : (i : F) ≤ a)
    (hstart : a ≤ i + 1) (hstop : (i : F) + 1 ≤ b) (hhigh : b ≤ i + 2) :
    areaIntegral row n a b = row i * (i + 1 - a) + row (i + 1) * (b - (i + 1)) := by
  rw [areaIntegral, Finset.sum_eq_add i (i + 1) (Nat.succ_ne_self i).symm]
  · rw [cellLength, cellLength, min_eq_right hstop, max_eq_left hlow,
      max_eq_right (sub_nonneg.mpr hstart), Nat.cast_succ, min_eq_left (by linarith),
      max_eq_right hstart, max_eq_right (sub_nonneg.mpr hstop)]
  · intro j _ hne
    by_cases hlt : j < i
    · have hcell : (j : F) + 1 ≤ i := by exact_mod_cast hlt
      rw [cellLength_eq_zero_of_le (hcell.trans hlow), mul_zero]
    · have hcell : (i : F) + 2 ≤ j := by exact_mod_cast (show i + 2 ≤ j by omega)
      rw [cellLength_eq_zero_of_ge (hhigh.trans hcell), mul_zero]
  · intro hout
    exact absurd (Finset.mem_range.mpr (by omega)) hout
  · intro hout
    exact absurd (Finset.mem_range.mpr hi) hout

end AreaIntegral

end Alus.Lib
