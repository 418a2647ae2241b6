import Mathlib.Algebra.Order.Ring.Int
import Mathlib.Tactic.Linarith
import Mathlib.Tactic.LinearCombination
import Mathlib.Tactic.Ring

/-!
# Interpolation in the cells of a grid

Values at the integers, and between two of them the straight line through both. The line of a
cell goes on beyond the cell, so two cells are compared at a point: for all values they agree at
the same point of the same cell, and at the integer that two neighbouring cells share.
-/

namespace Alus.Lib

variable {T : Type*} [CommRing T]

/-- The line through the values at `i` and `i + 1`, at `t`. -/
def cellValue (f : Int → T) (i : Int) (t : T) : T := f i + (t - i) * (f (i + 1) - f i)

/-- The cells `i` and `j` have the point `t` in common, or are the same. -/
def SameCell (i j : Int) (t : T) : Prop :=
  i = j ∨ j = i + 1 ∧ t = j ∨ i = j + 1 ∧ t = i

theorem cellValue_shift (f : Int → T) (k i : Int) (t : T) :
    cellValue (fun a => f (a + k)) i t = cellValue f (i + k) (t + k) := by
  unfold cellValue
  rw [show i + k + 1 = i + 1 + k by omega]
  push_cast
  ring

theorem cellValue_self (f : Int → T) (i : Int) : cellValue f i i = f i := by
  unfold cellValue
  ring

theorem cellValue_next (f : Int → T) (i : Int) : cellValue f i ((i + 1 : Int) : T) = f (i + 1) := by
  unfold cellValue
  push_cast
  ring

theorem SameCell.cellValue_eq {i j : Int} {t : T} (h : SameCell i j t) (f : Int → T) :
    cellValue f i t = cellValue f j t := by
  rcases h with rfl | ⟨rfl, rfl⟩ | ⟨rfl, rfl⟩
  · rfl
  · rw [cellValue_next, cellValue_self]
  · rw [cellValue_next, cellValue_self]

theorem cellValue_const (c : T) (i : Int) (t : T) : cellValue (fun _ => c) i t = c := by
  unfold cellValue
  ring

/-- Only the values at the two ends of the cell matter. -/
theorem cellValue_congr {f g : Int → T} {i : Int} (h : f i = g i) (h' : f (i + 1) = g (i + 1))
    (t : T) : cellValue f i t = cellValue g i t := by
  unfold cellValue
  rw [h, h']

/-- The weight of one value: that of the nearer end of the cell, or of the farther. -/
theorem cellValue_indicator (m i : Int) (t : T) :
    cellValue (fun n => if n = m then 1 else 0) i t =
      if i = m then 1 - (t - i) else if i + 1 = m then t - i else 0 := by
  show (if i = m then (1 : T) else 0) +
    (t - i) * ((if i + 1 = m then 1 else 0) - if i = m then 1 else 0) = _
  split_ifs
  · omega
  · ring
  · ring
  · ring

/-- Two cells that agree for all values agree at one point of both. -/
theorem sameCell_of_cellValue_eq [Nontrivial T] {i j : Int} {s t : T}
    (h : ∀ f : Int → T, cellValue f i s = cellValue f j t) : s = t ∧ SameCell i j t := by
  have hst : s = t := by
    -- the values themselves as positions
    have hid := h fun n => (n : T)
    unfold cellValue at hid
    push_cast at hid
    linear_combination hid
  subst hst
  refine ⟨rfl, ?_⟩
  -- the two ends of the cell `i` have the same weights in the cell `j`
  have hfirst := h fun n => if n = i then 1 else 0
  have hsecond := h fun n => if n = i + 1 then 1 else 0
  rw [cellValue_indicator, cellValue_indicator, if_pos rfl] at hfirst
  rw [cellValue_indicator, cellValue_indicator, if_neg (by omega), if_pos rfl] at hsecond
  by_cases hij : j = i
  · exact .inl hij.symm
  · rw [if_neg hij] at hfirst
    by_cases hnext : j = i + 1
    · rw [if_neg (by omega)] at hfirst
      refine .inr (.inl ⟨hnext, ?_⟩)
      rw [hnext]
      push_cast
      linear_combination -hfirst
    · rw [if_neg hnext, if_neg (by omega)] at hsecond
      by_cases hprev : j + 1 = i
      · exact .inr (.inr ⟨hprev.symm, by linear_combination hsecond⟩)
      -- no weight at either end, though the weights of a cell add up to one
      · rw [if_neg hprev] at hfirst
        exact absurd (by linear_combination hfirst + hsecond) (one_ne_zero (α := T))

end Alus.Lib
