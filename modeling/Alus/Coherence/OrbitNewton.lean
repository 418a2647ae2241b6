import Mathlib.Analysis.Calculus.FDeriv.Pi
import Mathlib.Analysis.RCLike.Lemmas
import Mathlib.Data.List.GetD
import Mathlib.Topology.Algebra.Module.FiniteDimension
import Alus.Coherence.OrbitTimes
import Alus.Coherence.Solve33
import Alus.Lib.Kernel
import Alus.Lib.PowerSums

/-!
# The Newton iterations of an orbit

`Orbit::Xyz2T` finds the time at which a point is seen, and `Orbit::RowsColumnsHeightToXyz` the
point on the ellipsoid that is seen at a time (`orbit.cc`). Both correct their values by Newton's
method: the first with the acceleration, the second with the partial derivatives of the Doppler, the
range and the ellipsoid equation, which `PolyUtils::Solve33` solves.

The arithmetic is exact. What is divided by zero is no number, and neither is what is computed from
it; the square root is a parameter.
-/

namespace Alus.Coherence

open Alus.Lib Matrix

/-- An orbit whose polynomials have been fitted. -/
structure FittedOrbit (R : Type) extends Orbit R where
  polyDegree : Nat
  degree_pos : 1 ≤ polyDegree
  time_ne : time ≠ []
  coeffX_length : coeffX.length = polyDegree + 1
  coeffY_length : coeffY.length = polyDegree + 1
  coeffZ_length : coeffZ.length = polyDegree + 1

section Computation

variable {R : Type} [Field R]

/-! ## `Point` -/

/-- `Point::Min`. -/
def Point.min (p q : Point R) : Point R := ⟨p.x - q.x, p.y - q.y, p.z - q.z⟩

/-- `Point::In`, the inner product. -/
def Point.inner (p q : Point R) : R := p.x * q.x + p.y * q.y + p.z * q.z

/-- `Point::Norm`. -/
def Point.norm (sqrt : R → R) (p : Point R) : R := sqrt (p.x * p.x + p.y * p.y + p.z * p.z)

/-! ## Positions -/

/-- A coordinate of the acceleration. The factor is a product of `int`. -/
def dotDotComponent (polyDegree : Nat) (azTimeNormal : R) (coeffs : List R) : Outcome R := do
  let sum ← (List.range' 2 (polyDegree - 1)).foldlM (fun (sum : R) (i : Nat) => do
    let factor ← int32 (((i : Int) - 1) * i)
    let coeff ← vectorIndex coeffs i
    return sum + coeff * (factor * azTimeNormal ^ (i - 2))) 0
  return sum / 100

/-- `GetXyzDotDot`. -/
def FittedOrbit.getXyzDotDot (orbit : FittedOrbit R) (azTime : R) : Outcome (Point R) := do
  let azTimeNormal ← orbit.azTimeNormal azTime
  let x ← dotDotComponent orbit.polyDegree azTimeNormal orbit.coeffX
  let y ← dotDotComponent orbit.polyDegree azTimeNormal orbit.coeffY
  let z ← dotDotComponent orbit.polyDegree azTimeNormal orbit.coeffZ
  return ⟨x, y, z⟩

/-! ## Equations -/

/-- `LIGHT_SPEED`. -/
def lightSpeed : R := 299792458

/-- `ELL_A`. -/
def ellA : R := 6378137

/-- `ELL_B`. -/
def ellB : R := 6356752314245 / 1000000

def eq1Doppler (satVelocity pointOnEllips : Point R) : R := satVelocity.inner pointOnEllips

def eq1DopplerDt (delta satelliteVelocity satelliteAcceleration : Point R) : R :=
  satelliteAcceleration.inner delta - satelliteVelocity.x * satelliteVelocity.x -
    satelliteVelocity.y * satelliteVelocity.y - satelliteVelocity.z * satelliteVelocity.z

def eq2Range (pointEllipsSat : Point R) (rgTime : R) : R :=
  pointEllipsSat.inner pointEllipsSat - (lightSpeed * rgTime) ^ 2

variable [DecidableEq R]

def eq3Ellipsoid (pointOnEllips : Point R) (height : R) : Option R := do
  let xy ← quotient (pointOnEllips.x * pointOnEllips.x + pointOnEllips.y * pointOnEllips.y)
    ((ellA + height) ^ 2)
  let z ← quotient pointOnEllips.z (ellB + height)
  return xy + z ^ 2 - 1

/-! ## Corrections -/

/-- `solution` of a pass of `Xyz2T`. -/
def FittedOrbit.dopplerCorrection (orbit : FittedOrbit R) (pointOnEllips : Point R)
    (timeAzimuth : R) : Outcome (Option R) := do
  let satellitePosition ← orbit.getXyz timeAzimuth
  let satelliteVelocity ← orbit.getXyzDot timeAzimuth
  let satelliteAcceleration ← orbit.getXyzDotDot timeAzimuth
  let delta := pointOnEllips.min satellitePosition
  return quotient (-eq1Doppler satelliteVelocity delta)
    (eq1DopplerDt delta satelliteVelocity satelliteAcceleration)

/-- `equation_set`. -/
def equationSet (satellitePosition satelliteVelocity : Point R) (rgTime : R) (height : Int)
    (ellipsoidPosition : Point R) : Option (Fin 3 → R) := do
  let dsatP := ellipsoidPosition.min satellitePosition
  let eq3 ← eq3Ellipsoid ellipsoidPosition height
  return ![-eq1Doppler satelliteVelocity dsatP, -eq2Range dsatP rgTime, -eq3]

/-- `partials_xyz`. -/
def partialsXyz (satellitePosition satelliteVelocity : Point R) (height : Int)
    (ellipsoidPosition : Point R) : Option (Matrix (Fin 3) (Fin 3) R) := do
  let dsatP := ellipsoidPosition.min satellitePosition
  let ellipsoidX ← quotient (2 * ellipsoidPosition.x) ((ellA + height) ^ 2)
  let ellipsoidY ← quotient (2 * ellipsoidPosition.y) ((ellA + height) ^ 2)
  let ellipsoidZ ← quotient (2 * ellipsoidPosition.z) ((ellB + height) ^ 2)
  return !![satelliteVelocity.x, satelliteVelocity.y, satelliteVelocity.z;
    2 * dsatP.x, 2 * dsatP.y, 2 * dsatP.z;
    ellipsoidX, ellipsoidY, ellipsoidZ]

/-- `ellipsoid_position_solution` of a pass. -/
def ellipsoidCorrection (satellitePosition satelliteVelocity : Point R) (rgTime : R) (height : Int)
    (ellipsoidPosition : Point R) : Outcome (Option (List R)) :=
  match partialsXyz satellitePosition satelliteVelocity height ellipsoidPosition,
    equationSet satellitePosition satelliteVelocity rgTime height ellipsoidPosition with
  | some partials, some equations => solve33 (rows partials) (List.ofFn equations)
  | _, _ => return none

/-! ## Passes -/

/-- `MAXITER`. -/
def maxIter : Nat := 10

variable [LinearOrder R]

/-- `CRITERTIM`. -/
def criterTim : R := 1 / 10 ^ 10

/-- `CRITERPOS`. -/
def criterPos : R := 1 / 10 ^ 6

/-- The passes of `Xyz2T`. A time that is no number stays so. -/
def FittedOrbit.dopplerPasses (orbit : FittedOrbit R) (pointOnEllips : Point R) :
    Nat → R → Outcome (Option R)
  | 0, timeAzimuth => return some timeAzimuth
  | passes + 1, timeAzimuth => do
    match ← orbit.dopplerCorrection pointOnEllips timeAzimuth with
    | none => return none
    | some solution =>
      if |solution| < criterTim then return some (timeAzimuth + solution)
      else orbit.dopplerPasses pointOnEllips passes (timeAzimuth + solution)

/-- `Xyz2T`: the range time and the azimuth time. -/
def FittedOrbit.xyz2T (orbit : FittedOrbit R) (sqrt : R → R) (pointOnEllips : Point R)
    (timeAzimuth : R) : Outcome (Option (Point R)) := do
  match ← orbit.dopplerPasses pointOnEllips (maxIter + 1) timeAzimuth with
  | none => return none
  | some timeAzimuth =>
    let satellitePosition ← orbit.getXyz timeAzimuth
    let delta := pointOnEllips.min satellitePosition
    return some ⟨delta.norm sqrt / lightSpeed, timeAzimuth, 0⟩

/-- The passes of `RowsColumnsHeightToXyz`. -/
def ellipsoidPasses (satellitePosition satelliteVelocity : Point R) (rgTime : R) (height : Int) :
    Nat → Point R → Outcome (Option (Point R))
  | 0, ellipsoidPosition => return some ellipsoidPosition
  | passes + 1, ellipsoidPosition => do
    match ← ellipsoidCorrection satellitePosition satelliteVelocity rgTime height
      ellipsoidPosition with
    | some [dx, dy, dz] =>
      let corrected := ⟨ellipsoidPosition.x + dx, ellipsoidPosition.y + dy,
        ellipsoidPosition.z + dz⟩
      if |dx| < criterPos ∧ |dy| < criterPos ∧ |dz| < criterPos then return some corrected
      else ellipsoidPasses satellitePosition satelliteVelocity rgTime height passes corrected
    | _ => return none

/-- `RowsColumnsHeightToXyz`, which does not read the row and the column. -/
def FittedOrbit.rowsColumnsHeightToXyz (orbit : FittedOrbit R) (height : Int) (azTime rgTime : R)
    (ellipsoidPosition : Point R) : Outcome (Option (Point R)) := do
  let satellitePosition ← orbit.getXyz azTime
  let satelliteVelocity ← orbit.getXyzDot azTime
  ellipsoidPasses satellitePosition satelliteVelocity rgTime height (maxIter + 1) ellipsoidPosition

/-- `RowsColumns2Xyz`. -/
def FittedOrbit.rowsColumns2Xyz (orbit : FittedOrbit R) (azTime rgTime : R)
    (ellipsoidPosition : Point R) : Outcome (Option (Point R)) :=
  orbit.rowsColumnsHeightToXyz 0 azTime rgTime ellipsoidPosition

end Computation

/-! ## What is promised -/

section Spec

/-- The coordinates change at the rates of another point. -/
def DerivAt (f : ℝ → Point ℝ) (f' : Point ℝ) (t : ℝ) : Prop :=
  HasDerivAt (fun t => (f t).x) f'.x t ∧ HasDerivAt (fun t => (f t).y) f'.y t ∧
    HasDerivAt (fun t => (f t).z) f'.z t

def Point.toVec (p : Point ℝ) : Fin 3 → ℝ := ![p.x, p.y, p.z]

def Point.ofVec (p : Fin 3 → ℝ) : Point ℝ := ⟨p 0, p 1, p 2⟩

/-- Velocity and acceleration are derivatives, and the correction of a time is the step of Newton's
method for the Doppler equation. -/
structure ExactDerivatives (orbit : FittedOrbit ℝ) (position velocity acceleration : ℝ → Point ℝ) :
    Prop where
  getXyz : ∀ t, orbit.getXyz t = .ok (position t)
  getXyzDot : ∀ t, orbit.getXyzDot t = .ok (velocity t)
  getXyzDotDot : ∀ t, orbit.getXyzDotDot t = .ok (acceleration t)
  position_derivAt : ∀ t, DerivAt position (velocity t) t
  velocity_derivAt : ∀ t, DerivAt velocity (acceleration t) t
  newtonStep : ∀ (point : Point ℝ) (t : ℝ), ∃ slope,
    HasDerivAt (fun t => (velocity t).inner (point.min (position t))) slope t ∧
      orbit.dopplerCorrection point t =
        .ok (quotient (-(velocity t).inner (point.min (position t))) slope)

/-- The partials are the Jacobian of the equations that are solved, and where it is regular the
correction is zero exactly at the solutions. -/
def ExactJacobian (satellitePosition satelliteVelocity : Point ℝ) (rgTime : ℝ) (height : Int)
    (ellipsoidPosition : Point ℝ) : Prop :=
  ∃ (equations : (Fin 3 → ℝ) → Fin 3 → ℝ) (jacobian : Matrix (Fin 3) (Fin 3) ℝ),
    (∀ p, equationSet satellitePosition satelliteVelocity rgTime height (.ofVec p) =
      some (-equations p)) ∧
    partialsXyz satellitePosition satelliteVelocity height ellipsoidPosition = some jacobian ∧
    HasFDerivAt equations (toLin' jacobian).toContinuousLinearMap ellipsoidPosition.toVec ∧
    (jacobian.det ≠ 0 →
      (ellipsoidCorrection satellitePosition satelliteVelocity rgTime height ellipsoidPosition =
        .ok (some [0, 0, 0]) ↔ equations ellipsoidPosition.toVec = 0))

/-- The iterations are those of Newton's method. -/
structure NewtonExact (orbit : FittedOrbit ℝ) (azTime rgTime : ℝ) (height : Int)
    (ellipsoidPosition : Point ℝ) : Prop where
  derivatives : ∃ position velocity acceleration,
    ExactDerivatives orbit position velocity acceleration
  jacobian : ∃ satellitePosition satelliteVelocity, orbit.getXyz azTime = .ok satellitePosition ∧
    orbit.getXyzDot azTime = .ok satelliteVelocity ∧
    ExactJacobian satellitePosition satelliteVelocity rgTime height ellipsoidPosition

end Spec

/-! ## Positions, velocities and accelerations -/

section Positions

variable {R : Type} [Field R]

/-- The value that is `at` a place of a list. -/
theorem vectorAt_getD {coeffs : List R} {i : Nat} (h : i < coeffs.length) :
    vectorAt coeffs (i : Int) = .ok (coeffs.getD i 0) := by
  rw [vectorAt_natCast h, List.getD_eq_getElem _ _ h]

theorem vectorIndex_getD {coeffs : List R} {i : Nat} (h : i < coeffs.length) :
    vectorIndex coeffs (i : Int) = .ok (coeffs.getD i 0) := by
  rw [vectorIndex_natCast h, List.getD_eq_getElem _ _ h]

theorem dotComponent_eq {coeffs : List R} {degree : Nat} (hlength : coeffs.length = degree + 1)
    (hdegree : 1 ≤ degree) (t : R) :
    Orbit.dotComponent degree t coeffs = .ok (powerSumDot coeffs t / 10) := by
  have hstep : ∀ i ∈ List.range' 2 (degree - 1), ∀ sum : R, (do
      let coeff ← vectorAt coeffs (i : Nat)
      return sum + coeff * (i * t ^ (i - 1)) : Outcome R) =
        .ok (sum + coeffs.getD i 0 * (i * t ^ (i - 1))) := by
    intro i hi sum
    have hi := List.mem_range'_1.mp hi
    rw [vectorAt_getD (by omega)]
    rfl
  have hfirst : vectorAt coeffs 1 = .ok (coeffs.getD 1 0) := by
    have hlt : 1 < coeffs.length := by omega
    exact vectorAt_getD hlt
  rw [Orbit.dotComponent, hfirst, Outcome.ok_bind, Outcome.foldlM_eq_ok hstep, foldl_add_map,
    ← powerSumDot_eq hlength hdegree]
  rfl

theorem dotDotComponent_eq {coeffs : List R} {degree : Nat} (hlength : coeffs.length = degree + 1)
    (hdegree : 1 ≤ degree) (hfits : degree ≤ 46341) (t : R) :
    dotDotComponent degree t coeffs = .ok (powerSumDotDot coeffs t / 100) := by
  have hstep : ∀ i ∈ List.range' 2 (degree - 1), ∀ sum : R, (do
      let factor ← int32 (((i : Int) - 1) * i)
      let coeff ← vectorIndex coeffs (i : Nat)
      return sum + coeff * (factor * t ^ (i - 2)) : Outcome R) =
        .ok (sum + coeffs.getD i 0 * ((i - 1) * i * t ^ (i - 2))) := by
    intro i hi sum
    have hi := List.mem_range'_1.mp hi
    have hproduct : ((i : Int) - 1) * i ≤ 46340 * 46341 :=
      mul_le_mul (by omega) (by omega) (by omega) (by omega)
    have hnonneg : 0 ≤ ((i : Int) - 1) * i := mul_nonneg (by omega) (by omega)
    rw [int32_of_bounds (by omega) (by omega), Outcome.ok_bind,
      vectorIndex_getD (by omega), Outcome.ok_bind]
    push_cast
    rfl
  rw [dotDotComponent, Outcome.foldlM_eq_ok hstep, foldl_add_map, zero_add,
    ← powerSumDotDot_eq hlength hdegree]
  rfl

/-- From some degree on the factors do not fit an `int`. -/
theorem degree_le_of_dotDotComponent {coeffs : List R} {degree : Nat} {t a : R}
    (h : dotDotComponent degree t coeffs = .ok a) : degree ≤ 46341 := by
  by_contra hdegree
  obtain ⟨_, hsum, -⟩ := Outcome.bind_eq_ok.mp h
  have hmem : 46342 ∈ List.range' 2 (degree - 1) := List.mem_range'_1.mpr ⟨by omega, by omega⟩
  obtain ⟨_, _, hstep⟩ := Outcome.ok_of_foldlM hsum hmem
  obtain ⟨_, hfactor, -⟩ := Outcome.bind_eq_ok.mp hstep
  have hfits := (fits32_iff.mp (int32_eq_ok.mp hfactor).1).2
  revert hfits
  decide

namespace FittedOrbit

variable (orbit : FittedOrbit R)

/-- The time that the others are counted from. -/
def middle : R := orbit.time.getD (orbit.time.length / 2) 0

def position (t : R) : Point R :=
  ⟨powerSum orbit.coeffX ((t - orbit.middle) / 10), powerSum orbit.coeffY ((t - orbit.middle) / 10),
    powerSum orbit.coeffZ ((t - orbit.middle) / 10)⟩

def velocity (t : R) : Point R :=
  ⟨powerSumDot orbit.coeffX ((t - orbit.middle) / 10) / 10,
    powerSumDot orbit.coeffY ((t - orbit.middle) / 10) / 10,
    powerSumDot orbit.coeffZ ((t - orbit.middle) / 10) / 10⟩

def acceleration (t : R) : Point R :=
  ⟨powerSumDotDot orbit.coeffX ((t - orbit.middle) / 10) / 100,
    powerSumDotDot orbit.coeffY ((t - orbit.middle) / 10) / 100,
    powerSumDotDot orbit.coeffZ ((t - orbit.middle) / 10) / 100⟩

theorem azTimeNormal_eq (t : R) : orbit.azTimeNormal t = .ok ((t - orbit.middle) / 10) := by
  have hlt : orbit.time.length / 2 < orbit.time.length :=
    Nat.div_lt_self (List.length_pos_of_ne_nil orbit.time_ne) (by decide)
  rw [Orbit.azTimeNormal, vectorIndex_getD hlt]
  rfl

theorem getXyz_eq (t : R) : orbit.getXyz t = .ok (orbit.position t) := by
  have hvalue (coeffs : List R) (x : R) : polyVal1D x coeffs = powerSum coeffs x :=
    horner_eq_powerSum x coeffs
  rw [Orbit.getXyz, azTimeNormal_eq, Outcome.ok_bind, hvalue, hvalue, hvalue]
  rfl

theorem getXyzDot_eq (t : R) : orbit.getXyzDot t = .ok (orbit.velocity t) := by
  have hdegree : orbit.coeffX.length - 1 = orbit.polyDegree := by
    rw [orbit.coeffX_length, Nat.add_sub_cancel]
  rw [Orbit.getXyzDot, azTimeNormal_eq, Outcome.ok_bind, hdegree]
  dsimp only
  rw [dotComponent_eq orbit.coeffX_length orbit.degree_pos, Outcome.ok_bind,
    dotComponent_eq orbit.coeffY_length orbit.degree_pos, Outcome.ok_bind,
    dotComponent_eq orbit.coeffZ_length orbit.degree_pos, Outcome.ok_bind]
  rfl

theorem getXyzDotDot_eq (h : orbit.polyDegree ≤ 46341) (t : R) :
    orbit.getXyzDotDot t = .ok (orbit.acceleration t) := by
  rw [getXyzDotDot, azTimeNormal_eq, Outcome.ok_bind,
    dotDotComponent_eq orbit.coeffX_length orbit.degree_pos h, Outcome.ok_bind,
    dotDotComponent_eq orbit.coeffY_length orbit.degree_pos h, Outcome.ok_bind,
    dotDotComponent_eq orbit.coeffZ_length orbit.degree_pos h, Outcome.ok_bind]
  rfl

theorem degree_le_of_getXyzDotDot {t : R} {a : Point R} (h : orbit.getXyzDotDot t = .ok a) :
    orbit.polyDegree ≤ 46341 := by
  rw [getXyzDotDot, azTimeNormal_eq, Outcome.ok_bind] at h
  obtain ⟨_, hx, -⟩ := Outcome.bind_eq_ok.mp h
  exact degree_le_of_dotDotComponent hx

end FittedOrbit

end Positions

/-! ## Derivatives -/

section Derivatives

variable (orbit : FittedOrbit ℝ)

/-- The scaled time makes the tenth of a derivative. -/
theorem position_derivAt (t : ℝ) : DerivAt orbit.position (orbit.velocity t) t :=
  ⟨hasDerivAt_normalized (hasDerivAt_powerSum orbit.coeffX _),
    hasDerivAt_normalized (hasDerivAt_powerSum orbit.coeffY _),
    hasDerivAt_normalized (hasDerivAt_powerSum orbit.coeffZ _)⟩

theorem velocity_derivAt (t : ℝ) : DerivAt orbit.velocity (orbit.acceleration t) t := by
  have hcoordinate (coeffs : List ℝ) : HasDerivAt
      (fun t => powerSumDot coeffs ((t - orbit.middle) / 10) / 10)
      (powerSumDotDot coeffs ((t - orbit.middle) / 10) / 100) t := by
    have htenth := (hasDerivAt_normalized (hasDerivAt_powerSumDot coeffs
      ((t - orbit.middle) / 10))).div_const 10
    have hhundred (a : ℝ) : a / 10 / 10 = a / 100 := by ring
    rwa [hhundred] at htenth
  exact ⟨hcoordinate orbit.coeffX, hcoordinate orbit.coeffY, hcoordinate orbit.coeffZ⟩

/-- The product rule. -/
theorem hasDerivAt_doppler {position velocity : ℝ → Point ℝ} {acceleration point : Point ℝ} {t : ℝ}
    (hposition : DerivAt position (velocity t) t) (hvelocity : DerivAt velocity acceleration t) :
    HasDerivAt (fun t => (velocity t).inner (point.min (position t)))
      (eq1DopplerDt (point.min (position t)) (velocity t) acceleration) t := by
  obtain ⟨hx, hy, hz⟩ := hposition
  obtain ⟨hx', hy', hz'⟩ := hvelocity
  have hproduct := ((hx'.mul (hx.const_sub point.x)).add (hy'.mul (hy.const_sub point.y))).add
    (hz'.mul (hz.const_sub point.z))
  have hslope : acceleration.x * (point.x - (position t).x) + (velocity t).x * -(velocity t).x +
      (acceleration.y * (point.y - (position t).y) + (velocity t).y * -(velocity t).y) +
      (acceleration.z * (point.z - (position t).z) + (velocity t).z * -(velocity t).z) =
      eq1DopplerDt (point.min (position t)) (velocity t) acceleration := by
    unfold eq1DopplerDt Point.inner Point.min
    ring
  rw [hslope] at hproduct
  exact hproduct

theorem exactDerivatives (h : orbit.polyDegree ≤ 46341) :
    ExactDerivatives orbit orbit.position orbit.velocity orbit.acceleration where
  getXyz := orbit.getXyz_eq
  getXyzDot := orbit.getXyzDot_eq
  getXyzDotDot := orbit.getXyzDotDot_eq h
  position_derivAt := position_derivAt orbit
  velocity_derivAt := velocity_derivAt orbit
  newtonStep point t := by
    refine ⟨_, hasDerivAt_doppler (position_derivAt orbit t) (velocity_derivAt orbit t), ?_⟩
    rw [FittedOrbit.dopplerCorrection, orbit.getXyz_eq, Outcome.ok_bind, orbit.getXyzDot_eq,
      Outcome.ok_bind, orbit.getXyzDotDot_eq h, Outcome.ok_bind]
    rfl

end Derivatives

/-! ## The Jacobian -/

section Jacobian

variable {R : Type} [Field R]

/-- The left sides of the three equations. -/
def pointEquations (satellitePosition satelliteVelocity : Point R) (rgTime : R) (height : Int)
    (p : Point R) : Fin 3 → R :=
  ![eq1Doppler satelliteVelocity (p.min satellitePosition),
    eq2Range (p.min satellitePosition) rgTime,
    (p.x * p.x + p.y * p.y) / (ellA + height) ^ 2 + (p.z / (ellB + height)) ^ 2 - 1]

/-- The matrix of their partial derivatives. -/
def pointJacobian (satellitePosition satelliteVelocity : Point R) (height : Int) (p : Point R) :
    Matrix (Fin 3) (Fin 3) R :=
  !![satelliteVelocity.x, satelliteVelocity.y, satelliteVelocity.z;
    2 * (p.x - satellitePosition.x), 2 * (p.y - satellitePosition.y),
      2 * (p.z - satellitePosition.z);
    2 * p.x / (ellA + height) ^ 2, 2 * p.y / (ellA + height) ^ 2, 2 * p.z / (ellB + height) ^ 2]

variable [DecidableEq R] {satellitePosition satelliteVelocity p : Point R} {rgTime : R}
  {height : Int}

theorem quotient_of_ne {b : R} (h : b ≠ 0) (a : R) : quotient a b = some (a / b) := if_neg h

theorem equationSet_eq (hA : (ellA : R) + height ≠ 0) (hB : (ellB : R) + height ≠ 0) :
    equationSet satellitePosition satelliteVelocity rgTime height p =
      some (-pointEquations satellitePosition satelliteVelocity rgTime height p) := by
  rw [equationSet, eq3Ellipsoid, quotient_of_ne (pow_ne_zero 2 hA), quotient_of_ne hB,
    pointEquations]
  show some ![_, _, _] = some (-![_, _, _])
  rw [neg_cons, neg_cons, neg_cons, neg_empty]

theorem partialsXyz_eq (hA : (ellA : R) + height ≠ 0) (hB : (ellB : R) + height ≠ 0) :
    partialsXyz satellitePosition satelliteVelocity height p =
      some (pointJacobian satellitePosition satelliteVelocity height p) := by
  rw [partialsXyz, quotient_of_ne (pow_ne_zero 2 hA), quotient_of_ne (pow_ne_zero 2 hA),
    quotient_of_ne (pow_ne_zero 2 hB)]
  rfl

/-- An ellipsoid without an extension has no partials. -/
theorem ne_of_partialsXyz {jacobian : Matrix (Fin 3) (Fin 3) R}
    (h : partialsXyz satellitePosition satelliteVelocity height p = some jacobian) :
    (ellA : R) + height ≠ 0 := by
  intro hA
  have hzero : quotient (2 * p.x) (((ellA : R) + height) ^ 2) = none := by
    rw [quotient, hA, zero_pow two_ne_zero, if_pos rfl]
  rw [partialsXyz, hzero] at h
  cases h

theorem ellipsoidCorrection_eq (hA : (ellA : R) + height ≠ 0) (hB : (ellB : R) + height ≠ 0) :
    ellipsoidCorrection satellitePosition satelliteVelocity rgTime height p =
      .ok ((eliminate (pointJacobian satellitePosition satelliteVelocity height p)
        (-pointEquations satellitePosition satelliteVelocity rgTime height p)).map List.ofFn) := by
  rw [ellipsoidCorrection, partialsXyz_eq hA hB, equationSet_eq hA hB]
  exact solve33_rows _ _

/-- The correction of a regular matrix is zero where there is nothing to correct, unless it divides
by zero. -/
theorem eliminate_neg_eq_zero_iff {a : Matrix (Fin 3) (Fin 3) R} (hdet : a.det ≠ 0)
    (equations : Fin 3 → R) :
    (eliminate a (-equations)).map List.ofFn = some [0, 0, 0] ↔
      equations = 0 ∧ LeadingMinors a := by
  have hzeros : List.ofFn (0 : Fin 3 → R) = [0, 0, 0] := rfl
  constructor
  · intro h
    obtain ⟨x, hx, hlist⟩ := Option.map_eq_some_iff.mp h
    obtain rfl : x = 0 := List.ofFn_injective (hlist.trans hzeros.symm)
    have hsolves := (mulVec_of_eliminate hx).2.2.2
    rw [mulVec_zero] at hsolves
    exact ⟨neg_eq_zero.mp hsolves.symm, (exists_eliminate_iff hdet _).mp ⟨0, hx⟩⟩
  · intro ⟨hsolution, hminors⟩
    obtain ⟨x, hx⟩ := (exists_eliminate_iff hdet (-equations)).mpr hminors
    have hsolves := (mulVec_of_eliminate hx).2.2.2
    rw [hsolution, neg_zero] at hsolves
    obtain rfl : x = 0 := mulVec_unique hdet hsolves (mulVec_zero a)
    rw [hx, Option.map_some, hzeros]

end Jacobian

section Exact

variable {satellitePosition satelliteVelocity p : Point ℝ} {rgTime : ℝ} {height : Int}

/-- A row of the Jacobian, as a derivative. -/
theorem pointJacobian_apply (satellitePosition satelliteVelocity p : Point ℝ) (height : Int)
    (e : Fin 3 → ℝ) (i : Fin 3) :
    toLin' (pointJacobian satellitePosition satelliteVelocity height p) e i =
      pointJacobian satellitePosition satelliteVelocity height p i 0 * e 0 +
        pointJacobian satellitePosition satelliteVelocity height p i 1 * e 1 +
        pointJacobian satellitePosition satelliteVelocity height p i 2 * e 2 := by
  rw [toLin'_apply, mulVec, dotProduct, Fin.sum_univ_three]

/-- The derivative of one equation. -/
def EquationDerivAt (satellitePosition satelliteVelocity p : Point ℝ) (rgTime : ℝ) (height : Int)
    (i : Fin 3) : Prop :=
  HasFDerivAt (fun q => pointEquations satellitePosition satelliteVelocity rgTime height
      (.ofVec q) i)
    ((ContinuousLinearMap.proj i).comp (LinearMap.toContinuousLinearMap
      (toLin' (pointJacobian satellitePosition satelliteVelocity height p)))) p.toVec

theorem equationDerivAt_doppler (satellitePosition satelliteVelocity p : Point ℝ) (rgTime : ℝ)
    (height : Int) : EquationDerivAt satellitePosition satelliteVelocity p rgTime height 0 := by
  have hx := hasFDerivAt_apply (𝕜 := ℝ) (0 : Fin 3) p.toVec
  have hy := hasFDerivAt_apply (𝕜 := ℝ) (1 : Fin 3) p.toVec
  have hz := hasFDerivAt_apply (𝕜 := ℝ) (2 : Fin 3) p.toVec
  have hdoppler := (((hx.sub_const satellitePosition.x).const_mul satelliteVelocity.x).add
    ((hy.sub_const satellitePosition.y).const_mul satelliteVelocity.y)).add
    ((hz.sub_const satellitePosition.z).const_mul satelliteVelocity.z)
  apply hdoppler.congr_fderiv
  ext e
  exact (pointJacobian_apply satellitePosition satelliteVelocity p height e 0).symm

theorem equationDerivAt_range (satellitePosition satelliteVelocity p : Point ℝ) (rgTime : ℝ)
    (height : Int) : EquationDerivAt satellitePosition satelliteVelocity p rgTime height 1 := by
  have hsquare (i : Fin 3) (c : ℝ) :=
    ((hasFDerivAt_apply (𝕜 := ℝ) i p.toVec).sub_const c).mul
      ((hasFDerivAt_apply (𝕜 := ℝ) i p.toVec).sub_const c)
  have hrange := (((hsquare 0 satellitePosition.x).add (hsquare 1 satellitePosition.y)).add
    (hsquare 2 satellitePosition.z)).sub_const ((lightSpeed * rgTime) ^ 2)
  apply hrange.congr_fderiv
  ext e
  refine Eq.trans ?_ (pointJacobian_apply satellitePosition satelliteVelocity p height e 1).symm
  show (p.x - satellitePosition.x) * e 0 + (p.x - satellitePosition.x) * e 0 +
      ((p.y - satellitePosition.y) * e 1 + (p.y - satellitePosition.y) * e 1) +
      ((p.z - satellitePosition.z) * e 2 + (p.z - satellitePosition.z) * e 2) =
    2 * (p.x - satellitePosition.x) * e 0 + 2 * (p.y - satellitePosition.y) * e 1 +
      2 * (p.z - satellitePosition.z) * e 2
  ring

theorem equationDerivAt_ellipsoid (satellitePosition satelliteVelocity p : Point ℝ) (rgTime : ℝ)
    (height : Int) : EquationDerivAt satellitePosition satelliteVelocity p rgTime height 2 := by
  have hx := hasFDerivAt_apply (𝕜 := ℝ) (0 : Fin 3) p.toVec
  have hy := hasFDerivAt_apply (𝕜 := ℝ) (1 : Fin 3) p.toVec
  have hz := hasFDerivAt_apply (𝕜 := ℝ) (2 : Fin 3) p.toVec
  have hellipsoid := ((((hx.mul hx).add (hy.mul hy)).mul_const
    (((ellA : ℝ) + height) ^ 2)⁻¹).add ((hz.mul_const ((ellB : ℝ) + height)⁻¹).pow 2)).sub_const 1
  apply hellipsoid.congr_fderiv
  ext e
  refine Eq.trans ?_ (pointJacobian_apply satellitePosition satelliteVelocity p height e 2).symm
  show (((ellA : ℝ) + height) ^ 2)⁻¹ * (p.x * e 0 + p.x * e 0 + (p.y * e 1 + p.y * e 1)) +
      (2 • (p.z * ((ellB : ℝ) + height)⁻¹) ^ 1) * (((ellB : ℝ) + height)⁻¹ * e 2) =
    2 * p.x / (ellA + height) ^ 2 * e 0 + 2 * p.y / (ellA + height) ^ 2 * e 1 +
      2 * p.z / (ellB + height) ^ 2 * e 2
  generalize (ellA : ℝ) + height = radiusA
  generalize (ellB : ℝ) + height = radiusB
  rw [nsmul_eq_mul, Nat.cast_ofNat]
  ring

/-- The equations are differentiable, and these are their derivatives. -/
theorem hasFDerivAt_pointEquations (satellitePosition satelliteVelocity p : Point ℝ) (rgTime : ℝ)
    (height : Int) :
    HasFDerivAt (fun q => pointEquations satellitePosition satelliteVelocity rgTime height
        (.ofVec q))
      (LinearMap.toContinuousLinearMap
        (toLin' (pointJacobian satellitePosition satelliteVelocity height p))) p.toVec := by
  apply hasFDerivAt_pi''
  intro i
  match i with
  | 0 => exact equationDerivAt_doppler satellitePosition satelliteVelocity p rgTime height
  | 1 => exact equationDerivAt_range satellitePosition satelliteVelocity p rgTime height
  | 2 => exact equationDerivAt_ellipsoid satellitePosition satelliteVelocity p rgTime height

end Exact

/-! ## Regular equations -/

section Regular

variable {R : Type} [Field R] [CharZero R]

theorem ellA_add_eq_zero_iff {height : Int} : (ellA : R) + height = 0 ↔ height = -6378137 := by
  have hcast : (ellA : R) + height = ((6378137 + height : Int) : R) := by
    rw [ellA, Int.cast_add, Int.cast_ofNat]
  rw [hcast, Int.cast_eq_zero]
  omega

theorem ellA_add_ne_zero {height : Int} (h : height ≠ -6378137) : (ellA : R) + height ≠ 0 :=
  fun hA => h (ellA_add_eq_zero_iff.mp hA)

/-- The smaller half axis is no whole number of metres. -/
theorem ellB_add_ne_zero (height : Int) : (ellB : R) + height ≠ 0 := by
  intro hzero
  have hcast : ((6356752314245 + 1000000 * height : Int) : R) = 0 := by
    rw [ellB] at hzero
    push_cast
    linear_combination 1000000 * hzero
  have hint := Int.cast_eq_zero.mp hcast
  omega

variable [DecidableEq R] {satellitePosition satelliteVelocity p : Point R} {rgTime : R}
  {height : Int}

theorem partialsXyz_eq_some_iff {jacobian : Matrix (Fin 3) (Fin 3) R} :
    partialsXyz satellitePosition satelliteVelocity height p = some jacobian ↔
      height ≠ -6378137 ∧
        pointJacobian satellitePosition satelliteVelocity height p = jacobian := by
  constructor
  · intro h
    have hA := ne_of_partialsXyz h
    rw [partialsXyz_eq hA (ellB_add_ne_zero height)] at h
    exact ⟨fun hheight => hA (ellA_add_eq_zero_iff.mpr hheight), Option.some.inj h⟩
  · intro ⟨hheight, h⟩
    rw [← h]
    exact partialsXyz_eq (ellA_add_ne_zero hheight) (ellB_add_ne_zero height)

/-- The correction on an ellipsoid that has an extension. -/
theorem ellipsoidCorrection_of_ne (hheight : height ≠ -6378137) :
    ellipsoidCorrection satellitePosition satelliteVelocity rgTime height p =
      .ok ((eliminate (pointJacobian satellitePosition satelliteVelocity height p)
        (-pointEquations satellitePosition satelliteVelocity rgTime height p)).map List.ofFn) :=
  ellipsoidCorrection_eq (ellA_add_ne_zero hheight) (ellB_add_ne_zero height)

/-- `Solve33` finds the one solution of regular equations. -/
def SolvesRegular (a : Matrix (Fin 3) (Fin 3) R) (rhs : Fin 3 → R) : Prop :=
  a.det ≠ 0 → ∃ x, solve33 (rows a) (List.ofFn rhs) = .ok (some (List.ofFn x)) ∧ a *ᵥ x = rhs ∧
    ∀ y, a *ᵥ y = rhs → y = x

/-- There is a correction where the partials are regular. -/
def DefinedCorrection (satellitePosition satelliteVelocity : Point R) (rgTime : R) (height : Int)
    (p : Point R) : Prop :=
  ∀ jacobian, partialsXyz satellitePosition satelliteVelocity height p = some jacobian →
    jacobian.det ≠ 0 →
      ∃ correction, ellipsoidCorrection satellitePosition satelliteVelocity rgTime height p =
        .ok (some correction)

omit [CharZero R] in
theorem solvesRegular_iff_leadingMinors {a : Matrix (Fin 3) (Fin 3) R} {rhs : Fin 3 → R} :
    SolvesRegular a rhs ↔ (a.det ≠ 0 → LeadingMinors a) := by
  refine forall_congr' fun hdet => ?_
  rw [solve33_rows, ← exists_eliminate_iff hdet rhs]
  constructor
  · intro ⟨x, hx, _⟩
    obtain ⟨y, hy, -⟩ := Option.map_eq_some_iff.mp (Outcome.ok.inj hx)
    exact ⟨y, hy⟩
  · intro ⟨x, hx⟩
    have hsolves := (mulVec_of_eliminate hx).2.2.2
    exact ⟨x, by rw [hx, Option.map_some], hsolves, fun y hy => mulVec_unique hdet hy hsolves⟩

theorem definedCorrection_iff_leadingMinors :
    DefinedCorrection satellitePosition satelliteVelocity rgTime height p ↔
      ∀ jacobian, partialsXyz satellitePosition satelliteVelocity height p = some jacobian →
        jacobian.det ≠ 0 → LeadingMinors jacobian := by
  refine forall_congr' fun jacobian => forall_congr' fun hjacobian => forall_congr' fun hdet => ?_
  obtain ⟨hheight, rfl⟩ := partialsXyz_eq_some_iff.mp hjacobian
  rw [ellipsoidCorrection_of_ne hheight, ← exists_eliminate_iff hdet
    (-pointEquations satellitePosition satelliteVelocity rgTime height p)]
  constructor
  · intro ⟨_, h⟩
    obtain ⟨x, hx, -⟩ := Option.map_eq_some_iff.mp (Outcome.ok.inj h)
    exact ⟨x, hx⟩
  · intro ⟨x, hx⟩
    rw [hx]
    exact ⟨_, rfl⟩

variable (R) in
/-- **When regular equations are solved.** `Solve33` finds the solution of regular equations exactly
where the leading minors are not zero. So a point has a correction exactly where, for a regular
Jacobian, the velocity has a component along x and is not in the line of sight as far as x and y
are concerned. -/
theorem solvesRegular_iff :
    (∀ (a : Matrix (Fin 3) (Fin 3) R) (rhs : Fin 3 → R),
      SolvesRegular a rhs ↔ (a.det ≠ 0 → a 0 0 ≠ 0 ∧ a 0 0 * a 1 1 - a 0 1 * a 1 0 ≠ 0)) ∧
    ∀ (satellitePosition satelliteVelocity : Point R) (rgTime : R) (height : Int) (p : Point R),
      DefinedCorrection satellitePosition satelliteVelocity rgTime height p ↔
        ∀ jacobian, partialsXyz satellitePosition satelliteVelocity height p = some jacobian →
          jacobian.det ≠ 0 → satelliteVelocity.x ≠ 0 ∧
            satelliteVelocity.x * (2 * (p.y - satellitePosition.y)) -
              satelliteVelocity.y * (2 * (p.x - satellitePosition.x)) ≠ 0 := by
  refine ⟨fun a rhs => solvesRegular_iff_leadingMinors, fun s v rgTime height p => ?_⟩
  rw [definedCorrection_iff_leadingMinors]
  refine forall_congr' fun jacobian => forall_congr' fun hjacobian => ?_
  obtain ⟨-, rfl⟩ := partialsXyz_eq_some_iff.mp hjacobian
  exact Iff.rfl

theorem solvesRegular_one : SolvesRegular (1 : Matrix (Fin 3) (Fin 3) ℚ) ![1, 2, 3] := by
  apply ((solvesRegular_iff ℚ).1 1 ![1, 2, 3]).mpr
  intro _
  simp

/-- Two rows that are exchanged. -/
theorem not_solvesRegular_exchanged : ¬ SolvesRegular !![0, 1, 0; 1, 0, 0; 0, 0, (1 : ℚ)] 0 := by
  intro h
  have hdet : det !![0, 1, 0; 1, 0, 0; 0, 0, (1 : ℚ)] ≠ 0 := by
    rw [det_fin_three]
    show (0 : ℚ) * 0 * 1 - 0 * 0 * 0 - 1 * 1 * 1 + 1 * 0 * 0 + 0 * 1 * 0 - 0 * 0 * 0 ≠ 0
    norm_num
  obtain ⟨h00, -⟩ := solvesRegular_iff_leadingMinors.mp h hdet
  exact h00 rfl

end Regular

/-! ## Newton's method -/

section Newton

variable {orbit : FittedOrbit ℝ} {azTime rgTime : ℝ} {height : Int}
  {satellitePosition satelliteVelocity p : Point ℝ}

theorem exactJacobian_iff :
    ExactJacobian satellitePosition satelliteVelocity rgTime height p ↔ height ≠ -6378137 ∧
      ((pointJacobian satellitePosition satelliteVelocity height p).det ≠ 0 →
        pointEquations satellitePosition satelliteVelocity rgTime height p = 0 →
          LeadingMinors (pointJacobian satellitePosition satelliteVelocity height p)) := by
  constructor
  · intro ⟨equations, jacobian, hequations, hjacobian, _, hcorrection⟩
    obtain ⟨hheight, rfl⟩ := partialsXyz_eq_some_iff.mp hjacobian
    refine ⟨hheight, fun hdet hsolution => ?_⟩
    -- both are the equations of the point
    have hsame : pointEquations satellitePosition satelliteVelocity rgTime height p =
        equations p.toVec := by
      have hset := hequations p.toVec
      rw [equationSet_eq (ellA_add_ne_zero hheight) (ellB_add_ne_zero height)] at hset
      exact neg_injective (Option.some.inj hset)
    have hzero := (hcorrection hdet).mpr (hsame ▸ hsolution)
    rw [ellipsoidCorrection_of_ne hheight] at hzero
    exact ((eliminate_neg_eq_zero_iff hdet _).mp (Outcome.ok.inj hzero)).2
  · intro ⟨hheight, hminors⟩
    have hA : (ellA : ℝ) + height ≠ 0 := ellA_add_ne_zero hheight
    refine ⟨fun q => pointEquations satellitePosition satelliteVelocity rgTime height (.ofVec q),
      pointJacobian satellitePosition satelliteVelocity height p,
      fun q => equationSet_eq hA (ellB_add_ne_zero height),
      partialsXyz_eq hA (ellB_add_ne_zero height),
      hasFDerivAt_pointEquations satellitePosition satelliteVelocity p rgTime height,
      fun hdet => ?_⟩
    rw [ellipsoidCorrection_of_ne hheight, Outcome.ok.injEq,
      eliminate_neg_eq_zero_iff hdet]
    exact ⟨fun h => h.1, fun h => ⟨h, hminors hdet h⟩⟩

/-- The factors of the accelerations fit an `int`, the ellipsoid has an extension, and a point that
solves the equations, of a regular Jacobian, has leading minors that are not zero. -/
structure NewtonRegular (orbit : FittedOrbit ℝ) (azTime rgTime : ℝ) (height : Int) (p : Point ℝ) :
    Prop where
  degree : orbit.polyDegree ≤ 46341
  extension : height ≠ -6378137
  minors : (pointJacobian (orbit.position azTime) (orbit.velocity azTime) height p).det ≠ 0 →
    pointEquations (orbit.position azTime) (orbit.velocity azTime) rgTime height p = 0 →
      LeadingMinors (pointJacobian (orbit.position azTime) (orbit.velocity azTime) height p)

theorem NewtonExact.regular (h : NewtonExact orbit azTime rgTime height p) :
    NewtonRegular orbit azTime rgTime height p := by
  obtain ⟨position, velocity, acceleration, hderivatives⟩ := h.derivatives
  obtain ⟨satellitePosition, satelliteVelocity, hposition, hvelocity, hjacobian⟩ := h.jacobian
  rw [orbit.getXyz_eq, Outcome.ok.injEq] at hposition
  rw [orbit.getXyzDot_eq, Outcome.ok.injEq] at hvelocity
  subst hposition hvelocity
  obtain ⟨hheight, hminors⟩ := exactJacobian_iff.mp hjacobian
  exact {
    degree := orbit.degree_le_of_getXyzDotDot (hderivatives.getXyzDotDot 0)
    extension := hheight
    minors := hminors }

/-- **When the iterations are Newton's.** The derivatives are exact while the factors fit, and so is
the Jacobian. The correction is zero exactly at the solutions, but for those at which the equations
are divided by a leading minor that is zero. -/
theorem newtonExact_iff (orbit : FittedOrbit ℝ) (azTime rgTime : ℝ) (height : Int) (p : Point ℝ) :
    NewtonExact orbit azTime rgTime height p ↔ NewtonRegular orbit azTime rgTime height p := by
  constructor
  · intro h
    exact h.regular
  · intro h
    exact {
      derivatives := ⟨_, _, _, exactDerivatives orbit h.degree⟩
      jacobian := ⟨_, _, orbit.getXyz_eq azTime, orbit.getXyzDot_eq azTime,
        exactJacobian_iff.mpr ⟨h.extension, h.minors⟩⟩ }

/-! ## Passes -/

/-- A pass is a step of Newton's method, and the passes return. -/
theorem exists_dopplerPasses (h : orbit.polyDegree ≤ 46341) (point : Point ℝ) (passes : Nat)
    (t : ℝ) : ∃ result, orbit.dopplerPasses point passes t = .ok result := by
  induction passes generalizing t with
  | zero => exact ⟨some t, rfl⟩
  | succ passes ih =>
    obtain ⟨slope, -, hcorrection⟩ := (exactDerivatives orbit h).newtonStep point t
    rw [FittedOrbit.dopplerPasses, hcorrection, Outcome.ok_bind]
    cases quotient (-(orbit.velocity t).inner (point.min (orbit.position t))) slope with
    | none => exact ⟨none, rfl⟩
    | some solution =>
      dsimp only
      split
      · exact ⟨_, rfl⟩
      · exact ih (t + solution)

/-- A solution is returned as it is, where nothing is divided by zero. -/
theorem rowsColumnsHeightToXyz_of_solution (hheight : height ≠ -6378137)
    (hdet : (pointJacobian (orbit.position azTime) (orbit.velocity azTime) height p).det ≠ 0)
    (hsolution : pointEquations (orbit.position azTime) (orbit.velocity azTime) rgTime height p = 0)
    (hminors : LeadingMinors
      (pointJacobian (orbit.position azTime) (orbit.velocity azTime) height p)) :
    orbit.rowsColumnsHeightToXyz height azTime rgTime p = .ok (some p) := by
  have hcorrection : ellipsoidCorrection (orbit.position azTime) (orbit.velocity azTime) rgTime
      height p = .ok (some [0, 0, 0]) := by
    rw [ellipsoidCorrection_of_ne hheight, Outcome.ok.injEq]
    exact (eliminate_neg_eq_zero_iff hdet _).mpr ⟨hsolution, hminors⟩
  have hsmall : |(0 : ℝ)| < criterPos := by
    rw [abs_zero, criterPos]
    positivity
  rw [FittedOrbit.rowsColumnsHeightToXyz, orbit.getXyz_eq, Outcome.ok_bind, orbit.getXyzDot_eq,
    Outcome.ok_bind, ellipsoidPasses, hcorrection, Outcome.ok_bind]
  dsimp only
  rw [if_pos ⟨hsmall, hsmall, hsmall⟩, add_zero, add_zero, add_zero]
  rfl

/-- What is divided by zero in the first pass is no position in the end. -/
theorem rowsColumnsHeightToXyz_eq_none (hheight : height ≠ -6378137)
    (hdet : (pointJacobian (orbit.position azTime) (orbit.velocity azTime) height p).det ≠ 0)
    (hminors : ¬ LeadingMinors
      (pointJacobian (orbit.position azTime) (orbit.velocity azTime) height p)) :
    orbit.rowsColumnsHeightToXyz height azTime rgTime p = .ok none := by
  have hnone : eliminate (pointJacobian (orbit.position azTime) (orbit.velocity azTime) height p)
      (-pointEquations (orbit.position azTime) (orbit.velocity azTime) rgTime height p) = none := by
    apply Option.eq_none_iff_forall_ne_some.mpr
    intro x hx
    exact hminors ((exists_eliminate_iff hdet _).mp ⟨x, hx⟩)
  rw [FittedOrbit.rowsColumnsHeightToXyz, orbit.getXyz_eq, Outcome.ok_bind, orbit.getXyzDot_eq,
    Outcome.ok_bind, ellipsoidPasses, ellipsoidCorrection_of_ne hheight, hnone]
  rfl

/-! ## A satellite that moves along y -/

/-- A satellite above the equator. -/
def alongY : FittedOrbit ℝ where
  time := [0]
  coeffX := [6378137, 0]
  coeffY := [0, 10]
  coeffZ := [299792458, 0]
  polyDegree := 1
  degree_pos := Nat.one_pos
  time_ne := List.cons_ne_nil 0 []
  coeffX_length := rfl
  coeffY_length := rfl
  coeffZ_length := rfl

theorem alongY_position : alongY.position 0 = ⟨6378137, 0, 299792458⟩ := by
  simp [FittedOrbit.position, FittedOrbit.middle, alongY, powerSum, Finset.sum_range_succ]

theorem alongY_velocity : alongY.velocity 0 = ⟨0, 1, 0⟩ := by
  simp [FittedOrbit.velocity, FittedOrbit.middle, alongY, powerSumDot, Finset.sum_range_succ]

/-- The point below it on the ellipsoid solves the equations, and they are divided by zero. -/
theorem not_newtonExact_alongY : ¬ NewtonExact alongY 0 1 0 ⟨6378137, 0, 0⟩ := by
  intro h
  have hminors := h.regular.minors
  rw [alongY_position, alongY_velocity] at hminors
  have hdet : (pointJacobian (⟨6378137, 0, 299792458⟩ : Point ℝ) ⟨0, 1, 0⟩ 0
      ⟨6378137, 0, 0⟩).det ≠ 0 := by
    rw [det_fin_three]
    simp [pointJacobian, ellA]
  have hsolution : pointEquations (⟨6378137, 0, 299792458⟩ : Point ℝ) ⟨0, 1, 0⟩ 1 0
      ⟨6378137, 0, 0⟩ = 0 := by
    funext i
    match i with
    | 0 => simp [pointEquations, eq1Doppler, Point.inner, Point.min]
    | 1 => simp [pointEquations, eq2Range, Point.inner, Point.min, lightSpeed, sq]
    | 2 => simp [pointEquations, ellA, sq]
  exact (hminors hdet hsolution).1 rfl

end Newton

end Alus.Coherence
