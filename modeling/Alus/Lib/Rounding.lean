import Mathlib.Algebra.Order.Floor.Ring
import Mathlib.Algebra.Order.Ring.Int
import Mathlib.Tactic.FieldSimp
import Mathlib.Tactic.Linarith
import Mathlib.Tactic.NormNum
import Mathlib.Tactic.Positivity
import Alus.Lib.Numerals

/-!
# Conversions to integers

The conversions of `double` to `int` that index computations use, over exact numbers: truncation
towards zero and rounding half away from zero.
-/

namespace Alus.Lib

variable {T : Type*} [Field T] [LinearOrder T] [IsStrictOrderedRing T] [FloorRing T]

/-- `static_cast<int>`: truncation towards zero. -/
def toInt (q : T) : Int := if 0 ≤ q then ⌊q⌋ else ⌈q⌉

/-- `std::round`: to the nearest integer, half away from zero. -/
def stdRound (q : T) : Int := if 0 ≤ q then ⌊q + 1 / 2⌋ else ⌈q - 1 / 2⌉

/-- `fmod`: the remainder of the truncated quotient. -/
def fmod (a b : T) : T := a - (toInt (a / b) : T) * b

omit [IsStrictOrderedRing T] in
theorem toInt_of_nonneg {q : T} (h : 0 ≤ q) : toInt q = ⌊q⌋ := if_pos h

theorem toInt_of_nonpos {q : T} (h : q ≤ 0) : toInt q = ⌈q⌉ := by
  unfold toInt
  split
  · next hnonneg => rw [le_antisymm h hnonneg, Int.floor_zero, Int.ceil_zero]
  · rfl

@[simp] theorem toInt_intCast (n : Int) : toInt (n : T) = n := by
  unfold toInt
  split
  · exact Int.floor_intCast n
  · exact Int.ceil_intCast n

theorem floor_le_toInt (q : T) : ⌊q⌋ ≤ toInt q := by
  unfold toInt
  split
  · exact le_refl _
  · exact Int.floor_le_ceil q

theorem toInt_le_ceil (q : T) : toInt q ≤ ⌈q⌉ := by
  unfold toInt
  split
  · exact Int.floor_le_ceil q
  · exact le_refl _

theorem toInt_mono {p q : T} (h : p ≤ q) : toInt p ≤ toInt q := by
  unfold toInt
  split
  · next hp =>
    rw [if_pos (le_trans hp h)]
    exact Int.floor_mono h
  · next hp =>
    split
    · next hq =>
      -- a negative number truncates to at most zero, a nonnegative one to at least zero
      have h1 : ⌈p⌉ ≤ 0 := Int.ceil_le.mpr (by push_cast; linarith [not_le.mp hp])
      have h2 : 0 ≤ ⌊q⌋ := Int.floor_nonneg.mpr hq
      omega
    · exact Int.ceil_mono h

/-- An integer at most the number is at most its truncation. -/
theorem le_toInt {n : Int} {q : T} (h : (n : T) ≤ q) : n ≤ toInt q :=
  le_trans (Int.le_floor.mpr h) (floor_le_toInt q)

theorem toInt_le {n : Int} {q : T} (h : q ≤ n) : toInt q ≤ n :=
  le_trans (toInt_le_ceil q) (Int.ceil_le.mpr h)

/-- Truncation does not move away from zero. -/
theorem abs_toInt_le (q : T) : |(toInt q : T)| ≤ |q| := by
  unfold toInt
  split
  · next hq =>
    have hfloor : (0 : T) ≤ (⌊q⌋ : T) := Int.cast_nonneg_iff.mpr (Int.floor_nonneg.mpr hq)
    rw [abs_of_nonneg hfloor, abs_of_nonneg hq]
    exact Int.floor_le q
  · next hq =>
    have hneg := (not_le.mp hq).le
    have hceil : (⌈q⌉ : T) ≤ 0 := Int.cast_nonpos.mpr (Int.ceil_le.mpr (by exact_mod_cast hneg))
    rw [abs_of_nonpos hceil, abs_of_nonpos hneg]
    exact neg_le_neg (Int.le_ceil q)

theorem toInt_pos_iff {q : T} : 0 < toInt q ↔ 1 ≤ q := by
  constructor
  · intro hpos
    by_contra hlt
    have hle : toInt q ≤ 0 := by
      unfold toInt
      split
      · have hfloor : ⌊q⌋ < 1 := Int.floor_lt.mpr (by push_cast; linarith)
        omega
      · next hneg => exact Int.ceil_le.mpr (by push_cast; linarith [not_le.mp hneg])
    omega
  · intro hq
    have hone : (1 : Int) ≤ toInt q := le_toInt (by exact_mod_cast hq)
    omega

/-- Truncation of the negated number, as a count of what lies before it. -/
theorem max_neg_toInt_neg (p : T) : max 0 (-toInt (-p)) = max 0 ⌊p⌋ := by
  unfold toInt
  split
  · next hp =>
    have hfloor : 0 ≤ ⌊-p⌋ := Int.floor_nonneg.mpr hp
    have hp0 : ⌊p⌋ ≤ 0 := by
      have := Int.floor_mono (show p ≤ ((0 : Int) : T) by push_cast; linarith)
      rwa [Int.floor_intCast] at this
    omega
  · rw [Int.ceil_neg, neg_neg]

/-- `static_cast<int>(n + 0.5)`. -/
theorem toInt_add_half {n : Int} (h : 0 ≤ n) : toInt ((n : T) + 1 / 2) = n := by
  have hn : (0 : T) ≤ n := by exact_mod_cast h
  rw [toInt_of_nonneg (by linarith), Int.floor_eq_iff]
  constructor
  · linarith
  · linarith

@[simp] theorem stdRound_intCast (n : Int) : stdRound (n : T) = n := by
  unfold stdRound
  split
  · rw [Int.floor_eq_iff]
    constructor
    · linarith
    · linarith
  · rw [Int.ceil_eq_iff]
    constructor
    · linarith
    · linarith

/-- A number closer than one half to an integer rounds to it. -/
theorem stdRound_of_abs_lt {q : T} {n : Int} (h : |q - n| < 1 / 2) : stdRound q = n := by
  have hlow : -(1 / 2) < q - n := (abs_lt.mp h).1
  have hhigh : q - n < 1 / 2 := (abs_lt.mp h).2
  unfold stdRound
  split
  · rw [Int.floor_eq_iff]
    constructor
    · linarith
    · linarith
  · rw [Int.ceil_eq_iff]
    constructor
    · linarith
    · linarith

theorem stdRound_le {n : Int} {q : T} (h : q ≤ n) : stdRound q ≤ n := by
  unfold stdRound
  split
  · have hlt : ⌊q + 1 / 2⌋ < n + 1 := Int.floor_lt.mpr (by push_cast; linarith)
    omega
  · exact Int.ceil_le.mpr (by linarith)

theorem le_stdRound {n : Int} {q : T} (h : (n : T) ≤ q) : n ≤ stdRound q := by
  unfold stdRound
  split
  · exact Int.le_floor.mpr (by linarith)
  · have hlt : n - 1 < ⌈q - 1 / 2⌉ := Int.lt_ceil.mpr (by push_cast; linarith)
    omega

theorem abs_stdRound_sub_le (q : T) : |(stdRound q : T) - q| ≤ 1 / 2 := by
  rw [abs_le]
  unfold stdRound
  split
  · have hle := Int.floor_le (q + 1 / 2)
    have hlt := Int.lt_floor_add_one (q + 1 / 2)
    exact ⟨by linarith, by linarith⟩
  · have hle := Int.le_ceil (q - 1 / 2)
    have hlt := Int.ceil_lt_add_one (q - 1 / 2)
    exact ⟨by linarith, by linarith⟩

theorem stdRound_mono {p q : T} (h : p ≤ q) : stdRound p ≤ stdRound q := by
  unfold stdRound
  split
  · rw [if_pos (le_trans ‹0 ≤ p› h)]
    exact Int.floor_le_floor (by linarith)
  · next hp =>
    split
    · next hq =>
      -- below zero nothing is rounded to more than zero
      have hceil : ⌈p - 1 / 2⌉ ≤ 0 := Int.ceil_le.mpr (by push_cast; linarith)
      exact hceil.trans (Int.floor_nonneg.mpr (by linarith))
    · exact Int.ceil_le_ceil (by linarith)

/-- A number that is not negative is rounded down by less than one half. -/
theorem sub_half_lt_stdRound {q : T} (h : 0 ≤ q) : q - 1 / 2 < stdRound q := by
  rw [stdRound, if_pos h]
  have hlt := Int.lt_floor_add_one (q + 1 / 2)
  linarith

/-- From one half below zero on, a half is rounded up. -/
theorem stdRound_eq_floor {q : T} (h : -(1 / 2) < q) : stdRound q = ⌊q + 1 / 2⌋ := by
  unfold stdRound
  split
  · rfl
  · next hneg =>
    rw [not_le] at hneg
    have hceil : ⌈q - 1 / 2⌉ = 0 :=
      Int.ceil_eq_iff.mpr ⟨by push_cast; linarith, by push_cast; linarith⟩
    have hfloor : ⌊q + 1 / 2⌋ = 0 :=
      Int.floor_eq_iff.mpr ⟨by push_cast; linarith, by push_cast; linarith⟩
    rw [hceil, hfloor]

/-- Up to one half below zero, a half is rounded down. -/
theorem stdRound_neg {q : T} (h : q ≤ -(1 / 2)) : stdRound q < 0 := by
  have hceil : ⌈q - 1 / 2⌉ ≤ -1 := Int.ceil_le.mpr (by push_cast; linarith)
  have hneg : ¬ 0 ≤ q := by linarith
  rw [stdRound, if_neg hneg]
  omega

/-- Numbers that are one or more apart are not rounded to the same. -/
theorem stdRound_lt_stdRound {p q : T} (h : p + 1 ≤ q) : stdRound p < stdRound q := by
  rcases lt_or_ge p 0 with hp | hp
  · rcases lt_or_ge q 0 with hq | hq
    · rw [stdRound, stdRound, if_neg (not_le.mpr hp), if_neg (not_le.mpr hq), ← Int.add_one_le_iff,
        ← Int.ceil_add_one]
      exact Int.ceil_le_ceil (by linarith)
    -- one of the two is at least one half away from zero
    · rcases le_or_gt p (-(1 / 2)) with hfar | hnear
      · exact (stdRound_neg hfar).trans_le (le_stdRound (by exact_mod_cast hq))
      · have hzero : stdRound p ≤ 0 := stdRound_le (by exact_mod_cast hp.le)
        have hone : 1 ≤ stdRound q := by
          rw [stdRound, if_pos hq]
          exact Int.le_floor.mpr (by push_cast; linarith)
        omega
  · have hq : 0 ≤ q := by linarith
    rw [stdRound, stdRound, if_pos hp, if_pos hq, ← Int.add_one_le_iff, ← Int.floor_add_one]
    exact Int.floor_le_floor (by linarith)

/-- The quotient of a nonnegative index, computed by the inverse of the divisor. -/
theorem toInt_mul_inverse {n d : Int} (hn : 0 ≤ n) (hd : 0 < d) :
    toInt ((n : T) * (1 / (d : T))) = n / d := by
  have hdT : (0 : T) < d := by exact_mod_cast hd
  have hnT : (0 : T) ≤ n := by exact_mod_cast hn
  rw [toInt_of_nonneg (by positivity), mul_one_div]
  have hlow : n / d * d ≤ n := Int.ediv_mul_le n (by omega)
  have hhigh : n < (n / d + 1) * d := Int.lt_ediv_add_one_mul_self n hd
  rw [Int.floor_eq_iff]
  constructor
  · rw [le_div_iff₀ hdT]
    exact_mod_cast hlow
  · rw [div_lt_iff₀ hdT]
    exact_mod_cast hhigh

/-- A quotient of integers, truncated. -/
theorem toInt_div (a : Int) {b : Int} (hb : 0 < b) : toInt ((a : T) / (b : T)) = a.tdiv b := by
  have hbT : (0 : T) < b := by exact_mod_cast hb
  have hfloor : ∀ c : Int, ⌊(c : T) / (b : T)⌋ = c / b := fun c => by
    rw [Int.floor_div_cast_of_nonneg hb.le, Int.floor_intCast]
  rcases le_or_gt 0 a with ha | ha
  · have haT : (0 : T) ≤ a := by exact_mod_cast ha
    rw [toInt_of_nonneg (div_nonneg haT hbT.le), Int.tdiv_eq_ediv_of_nonneg ha, hfloor]
  · have haT : (a : T) < 0 := by exact_mod_cast ha
    have hneg : a.tdiv b = -(-a / b) := by
      rw [← Int.tdiv_eq_ediv_of_nonneg (by omega), Int.neg_tdiv, neg_neg]
    rw [toInt, if_neg (not_le.mpr (div_neg_of_neg_of_pos haT hbT)), hneg, ← hfloor,
      ← Int.ceil_neg]
    push_cast
    rw [neg_div, neg_neg]

/-- The remainder of a fraction by an integer. -/
theorem fmod_div (a : Int) {b c : Int} (hb : 0 < b) (hc : 0 < c) :
    fmod ((a : T) / (c : T)) (b : T) = ((a.tmod (b * c) : Int) : T) / c := by
  have hcT : (c : T) ≠ 0 := by exact_mod_cast hc.ne'
  have hquotient : (a : T) / c / b = (a : T) / ((b * c : Int) : T) := by
    push_cast
    rw [div_div, mul_comm (c : T)]
  rw [fmod, hquotient, toInt_div a (Int.mul_pos hb hc), Int.tmod_def]
  push_cast
  field_simp

omit [IsStrictOrderedRing T] in
/-- The remainder of a multiple is what is left of its truncated factor. -/
theorem fmod_mul (q : T) {b : Int} (hb : 0 < b) :
    fmod (q * b) b = q * b - ((toInt q * b : Int) : T) := by
  have hbT : (b : T) ≠ 0 := by exact_mod_cast hb.ne'
  rw [fmod, mul_div_cancel_right₀ _ hbT]
  push_cast
  rfl

end Alus.Lib
