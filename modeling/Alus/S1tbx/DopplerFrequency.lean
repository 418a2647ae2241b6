import Mathlib.Algebra.Order.Field.Basic
import Mathlib.Algebra.Order.Ring.Abs
import Mathlib.Data.Rat.Sqrt
import Mathlib.Tactic.FieldSimp
import Mathlib.Tactic.Linarith
import Mathlib.Tactic.Ring
import Alus.Lib.Numerals

/-!
# The Doppler frequency of an earth point

`getDopplerFrequency` (`s1tbx-commons/sar_geocoding.cuh`), for a sensor position and velocity and
for an orbit state vector. Its sign is that of the product of the velocity and the line of sight.
-/

namespace Alus.S1tbx

structure PosVector (R : Type) where
  x : R
  y : R
  z : R
  deriving DecidableEq, Repr

structure OrbitStateVectorComputation (R : Type) where
  timeMjd : R
  xPos : R
  yPos : R
  zPos : R
  xVel : R
  yVel : R
  zVel : R
  deriving DecidableEq, Repr

/-- `sqrt`, which is positive for what is positive. -/
structure SquareRoot (R : Type) [Field R] [LinearOrder R] where
  sqrt : R → R
  sqrt_pos : ∀ q, 0 < q → 0 < sqrt q

section Code

variable {R : Type} [Field R] [LinearOrder R] (root : SquareRoot R)

/-- `NON_VALID_ZERO_DOPPLER_TIME`. -/
def nonValidZeroDopplerTime : R := -99999

/-- The velocity towards the earth point, times its distance. -/
def velocityTowards (earthPoint sensorPosition sensorVelocity : PosVector R) : R :=
  sensorVelocity.x * (earthPoint.x - sensorPosition.x) +
    sensorVelocity.y * (earthPoint.y - sensorPosition.y) +
    sensorVelocity.z * (earthPoint.z - sensorPosition.z)

def getDopplerFrequency (earthPoint sensorPosition sensorVelocity : PosVector R)
    (wavelength : R) : R :=
  let xDiff := earthPoint.x - sensorPosition.x
  let yDiff := earthPoint.y - sensorPosition.y
  let zDiff := earthPoint.z - sensorPosition.z
  let distance := root.sqrt (xDiff * xDiff + yDiff * yDiff + zDiff * zDiff)
  2 * (sensorVelocity.x * xDiff + sensorVelocity.y * yDiff + sensorVelocity.z * zDiff) /
    (distance * wavelength)

/-- The overload for an orbit state vector. -/
def getDopplerFrequencyOrbit (earthPoint : PosVector R) (orbit : OrbitStateVectorComputation R)
    (wavelength : R) : R :=
  getDopplerFrequency root earthPoint ⟨orbit.xPos, orbit.yPos, orbit.zPos⟩
    ⟨orbit.xVel, orbit.yVel, orbit.zVel⟩ wavelength

variable {root} [IsStrictOrderedRing R]

theorem eq_zero_of_sum_mul_self {a b c : R} (h : a * a + b * b + c * c = 0) :
    a = 0 ∧ b = 0 ∧ c = 0 := by
  have ha := mul_self_nonneg a
  have hb := mul_self_nonneg b
  have hc := mul_self_nonneg c
  have hzero : ∀ {u : R}, u * u ≤ 0 → u = 0 := fun hu =>
    mul_self_eq_zero.mp (le_antisymm hu (mul_self_nonneg _))
  exact ⟨hzero (by linarith), hzero (by linarith), hzero (by linarith)⟩

/-- The frequency is a positive multiple of the velocity towards the earth point. -/
theorem exists_getDopplerFrequency_eq_mul {wavelength : R} (hpos : 0 < wavelength)
    (earthPoint sensorPosition sensorVelocity : PosVector R) :
    ∃ c, 0 < c ∧ getDopplerFrequency root earthPoint sensorPosition sensorVelocity wavelength =
      c * velocityTowards earthPoint sensorPosition sensorVelocity := by
  by_cases hzero : (earthPoint.x - sensorPosition.x) * (earthPoint.x - sensorPosition.x) +
      (earthPoint.y - sensorPosition.y) * (earthPoint.y - sensorPosition.y) +
      (earthPoint.z - sensorPosition.z) * (earthPoint.z - sensorPosition.z) = 0
  -- the sensor is at the earth point
  · have ⟨hx, hy, hz⟩ := eq_zero_of_sum_mul_self hzero
    refine ⟨1, one_pos, ?_⟩
    simp only [getDopplerFrequency, velocityTowards, hx, hy, hz, mul_zero, add_zero, zero_div]
  · have hsquare : 0 < (earthPoint.x - sensorPosition.x) * (earthPoint.x - sensorPosition.x) +
        (earthPoint.y - sensorPosition.y) * (earthPoint.y - sensorPosition.y) +
        (earthPoint.z - sensorPosition.z) * (earthPoint.z - sensorPosition.z) := by
      refine lt_of_le_of_ne ?_ (Ne.symm hzero)
      exact add_nonneg (add_nonneg (mul_self_nonneg _) (mul_self_nonneg _)) (mul_self_nonneg _)
    have hdistance := root.sqrt_pos _ hsquare
    refine ⟨2 / (root.sqrt _ * wavelength), div_pos two_pos (mul_pos hdistance hpos), ?_⟩
    simp only [getDopplerFrequency, velocityTowards]
    ring

end Code

/-- The square root of a fraction of squares. -/
def ratSquareRoot : SquareRoot ℚ where
  sqrt := Rat.sqrt
  sqrt_pos q hq := by
    have hnum : 0 < q.num.toNat := by
      have := Rat.num_pos.mpr hq
      omega
    rw [Rat.sqrt, Rat.mkRat_eq_div]
    refine div_pos ?_ ?_
    · show (0 : ℚ) < ((Nat.sqrt q.num.toNat : Int) : ℚ)
      exact_mod_cast Nat.sqrt_pos.mpr hnum
    · exact_mod_cast Nat.sqrt_pos.mpr q.den_pos

end Alus.S1tbx
