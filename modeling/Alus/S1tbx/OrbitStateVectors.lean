import Mathlib.Algebra.Order.Field.Basic
import Mathlib.Data.List.GetD
import Mathlib.Tactic.FieldSimp
import Mathlib.Tactic.Linarith
import Alus.Lib.IntRange
import Alus.Lib.Machine
import Alus.Lib.Rounding
import Alus.S1tbx.DopplerFrequency

/-!
# Orbit state vectors

`GetPositionVelocity` (`s1tbx-commons/orbit_state_vectors.cuh`) interpolates the position and
velocity at a time from a window of at most eight state vectors. `OrbitStateVectors` keeps the
vectors whose times increase, and computes their mean distance in time.
-/

namespace Alus.S1tbx

open Alus.Lib

/-! ## The code -/

section Code

variable {R : Type} [Field R] [LinearOrder R] [FloorRing R]

/-- `(int)(a / b)` for numbers of type `double`. A quotient by zero has no value as an `int`. -/
def quotientToInt (a b : R) : Outcome Int :=
  if b = 0 then .undefined else int32 (toInt (a / b))

/-- `NV`. -/
def nv : Int := 8

/-- `i_0` and `i_n`. -/
def orbitWindow (time : R) (orbit : List (OrbitStateVectorComputation R)) (dt : R) :
    Outcome (Int × Int) :=
  let numOrbitVec : Int := orbit.length
  if numOrbitVec ≤ nv then return (0, numOrbitVec - 1)
  else do
    let first ← vectorIndex orbit 0
    let i0 := max (← int32 ((← int32 ((← quotientToInt (time - first.timeMjd) dt) - nv / 2)) + 1)) 0
    let iN := min (← int32 ((← int32 (i0 + nv)) - 1)) (numOrbitVec - 1)
    return (if iN < numOrbitVec - 1 then i0 else iN - nv + 1, iN)

/-- The weight of the vector `orbI`, the `i`th one. -/
def lagrangeWeight (time : R) (orbit : List (OrbitStateVectorComputation R)) (window : List Int)
    (i : Int) (orbI : OrbitStateVectorComputation R) : Outcome R :=
  window.foldlM (fun weight j => do
    if j ≠ i then
      let time2 := (← vectorIndex orbit j).timeMjd
      return weight * ((time - time2) / (orbI.timeMjd - time2))
    else return weight) 1

def getPositionVelocity (time : R) (orbit : List (OrbitStateVectorComputation R)) (dt : R) :
    Outcome (PosVector R × PosVector R) := do
  let (i0, iN) ← orbitWindow time orbit dt
  let window := intRange i0 (iN + 1)
  window.foldlM (fun result i => do
    let orbI ← vectorIndex orbit i
    let weight ← lagrangeWeight time orbit window i orbI
    return (⟨result.1.x + weight * orbI.xPos, result.1.y + weight * orbI.yPos,
        result.1.z + weight * orbI.zPos⟩,
      ⟨result.2.x + weight * orbI.xVel, result.2.y + weight * orbI.yVel,
        result.2.z + weight * orbI.zVel⟩)) (⟨0, 0, 0⟩, ⟨0, 0, 0⟩)

end Code

section Quotient

variable {R : Type} [Field R] [LinearOrder R] [FloorRing R]

theorem quotientToInt_eq_ok {a b : R} {q : Int} :
    quotientToInt a b = .ok q ↔ b ≠ 0 ∧ Fits 32 (toInt (a / b)) ∧ q = toInt (a / b) := by
  unfold quotientToInt
  split
  · next hzero => exact ⟨fun h => (nomatch h), fun h => absurd hzero h.1⟩
  · next hne => rw [int32_eq_ok, and_iff_right hne]

end Quotient

/-! ## The vectors of an orbit -/

/-- What `OrbitStateVectors` keeps: at least two vectors with increasing times. `int` counts them
and the vectors of a window after the last. -/
structure OrbitVectors (R : Type) [LinearOrder R] where
  vectors : List (OrbitStateVectorComputation R)
  two : 2 ≤ vectors.length
  increasing : vectors.Pairwise fun a b => a.timeMjd < b.timeMjd
  fits : vectors.length + 3 < 2147483648

namespace OrbitVectors

section Times

variable {R : Type} [Field R] [LinearOrder R]

/-- The `i`th time. -/
def timeAt (orbit : OrbitVectors R) (i : Nat) : R :=
  (orbit.vectors.getD i ⟨0, 0, 0, 0, 0, 0, 0⟩).timeMjd

/-- `dt_`. -/
def dt (orbit : OrbitVectors R) : R :=
  (orbit.timeAt (orbit.vectors.length - 1) - orbit.timeAt 0) / ((orbit.vectors.length : R) - 1)

variable {orbit : OrbitVectors R}

theorem timeAt_of_getElem? {i : Nat} {v : OrbitStateVectorComputation R}
    (hv : orbit.vectors[i]? = some v) : orbit.timeAt i = v.timeMjd := by
  rw [timeAt, List.getD_eq_getElem?_getD, hv, Option.getD_some]

theorem timeAt_lt {i j : Nat} (hij : i < j) (hj : j < orbit.vectors.length) :
    orbit.timeAt i < orbit.timeAt j := by
  have hi : i < orbit.vectors.length := hij.trans hj
  rw [timeAt_of_getElem? (List.getElem?_eq_getElem hi),
    timeAt_of_getElem? (List.getElem?_eq_getElem hj)]
  exact List.pairwise_iff_getElem.mp orbit.increasing i j hi hj hij

theorem timeAt_le {i j : Nat} (hij : i ≤ j) (hj : j < orbit.vectors.length) :
    orbit.timeAt i ≤ orbit.timeAt j := by
  rcases hij.lt_or_eq with hlt | rfl
  · exact (timeAt_lt hlt hj).le
  · exact le_refl _

end Times

section Window

variable {R : Type} [Field R] [LinearOrder R] [IsStrictOrderedRing R] [FloorRing R]
  {orbit : OrbitVectors R} {time : R}

theorem dt_pos (orbit : OrbitVectors R) : 0 < orbit.dt := by
  have htwo := orbit.two
  have hcount : (1 : R) < orbit.vectors.length := by exact_mod_cast orbit.two
  exact div_pos (sub_pos.mpr (timeAt_lt (by omega) (by omega))) (sub_pos.mpr hcount)

/-- Before the last time, the vector that the window is placed around is before the last one. -/
theorem exists_quotientToInt (hfirst : orbit.timeAt 0 ≤ time)
    (hlast : time < orbit.timeAt (orbit.vectors.length - 1)) :
    ∃ q : Int, quotientToInt (time - orbit.timeAt 0) orbit.dt = .ok q ∧ 0 ≤ q ∧
      q + 1 < orbit.vectors.length := by
  have htwo := orbit.two
  have hfits := orbit.fits
  have hdt := dt_pos orbit
  have hquot : 0 ≤ (time - orbit.timeAt 0) / orbit.dt := div_nonneg (sub_nonneg.mpr hfirst) hdt.le
  have hlow : 0 ≤ toInt ((time - orbit.timeAt 0) / orbit.dt) := by
    rw [toInt_of_nonneg hquot]
    exact Int.floor_nonneg.mpr hquot
  have hhigh : toInt ((time - orbit.timeAt 0) / orbit.dt) < (orbit.vectors.length : Int) - 1 := by
    rw [toInt_of_nonneg hquot, Int.floor_lt]
    have hcount : (1 : R) < orbit.vectors.length := by exact_mod_cast orbit.two
    have hspan : (orbit.vectors.length - 1 : R) * orbit.dt =
        orbit.timeAt (orbit.vectors.length - 1) - orbit.timeAt 0 :=
      mul_div_cancel₀ _ (sub_pos.mpr hcount).ne'
    push_cast
    rw [div_lt_iff₀ hdt, hspan]
    exact sub_lt_sub_right hlast _
  refine ⟨_, ?_, hlow, by omega⟩
  rw [quotientToInt, if_neg hdt.ne']
  exact int32_of_bounds (by omega) (by omega)

theorem exists_orbitWindow (hfirst : orbit.timeAt 0 ≤ time)
    (hlast : time < orbit.timeAt (orbit.vectors.length - 1)) :
    ∃ i0 iN, orbitWindow time orbit.vectors orbit.dt = .ok (i0, iN) ∧ 0 ≤ i0 ∧
      iN < orbit.vectors.length := by
  have htwo := orbit.two
  have hfits := orbit.fits
  rw [orbitWindow]
  by_cases hsmall : (orbit.vectors.length : Int) ≤ nv
  · exact ⟨0, orbit.vectors.length - 1, if_pos hsmall, le_refl 0, by omega⟩
  · obtain ⟨q, hquot, hq0, hq⟩ := exists_quotientToInt hfirst hlast
    obtain ⟨first, hread, hget⟩ := exists_vectorIndex (v := orbit.vectors) (le_refl 0) (by omega)
    have htime : first.timeMjd = orbit.timeAt 0 := (timeAt_of_getElem? hget).symm
    have hnv : nv = 8 := rfl
    have hhalf : nv / 2 = 4 := rfl
    rw [hnv] at hsmall
    have h1 : int32 (q - 4) = .ok (q - 4) := int32_of_bounds (by omega) (by omega)
    have h2 : int32 (q - 4 + 1) = .ok (q - 4 + 1) := int32_of_bounds (by omega) (by omega)
    have h3 : int32 (max (q - 4 + 1) 0 + 8) = .ok (max (q - 4 + 1) 0 + 8) :=
      int32_of_bounds (by omega) (by omega)
    have h4 : int32 (max (q - 4 + 1) 0 + 8 - 1) = .ok (max (q - 4 + 1) 0 + 8 - 1) :=
      int32_of_bounds (by omega) (by omega)
    rw [if_neg (show ¬ (orbit.vectors.length : Int) ≤ nv from hsmall), hread, Outcome.ok_bind,
      htime, hquot, Outcome.ok_bind, hhalf, h1, Outcome.ok_bind, h2, Outcome.ok_bind, hnv]
    simp only [h3, h4, Outcome.ok_bind, Outcome.pure_eq]
    refine ⟨_, _, rfl, ?_, by omega⟩
    split <;> omega

/-- What `GetPositionVelocity` reads is there. -/
theorem exists_getPositionVelocity (orbit : OrbitVectors R) (hfirst : orbit.timeAt 0 ≤ time)
    (hlast : time < orbit.timeAt (orbit.vectors.length - 1)) :
    ∃ posvel, getPositionVelocity time orbit.vectors orbit.dt = .ok posvel := by
  obtain ⟨i0, iN, hwindow, h0, hN⟩ := exists_orbitWindow hfirst hlast
  have hread : ∀ i ∈ intRange i0 (iN + 1), ∃ v, vectorIndex orbit.vectors i = .ok v := by
    intro i hi
    rw [mem_intRange] at hi
    obtain ⟨v, hv, -⟩ := exists_vectorIndex (v := orbit.vectors) (i := i) (by omega) (by omega)
    exact ⟨v, hv⟩
  have hweight : ∀ i orbI, ∃ w,
      lagrangeWeight time orbit.vectors (intRange i0 (iN + 1)) i orbI = .ok w := by
    intro i orbI
    refine Outcome.exists_foldlM (fun weight j hj => ?_) 1
    split
    · obtain ⟨v, hv⟩ := hread j hj
      exact ⟨_, by rw [hv]; rfl⟩
    · exact ⟨weight, rfl⟩
  rw [getPositionVelocity, hwindow]
  refine Outcome.exists_foldlM (fun result i hi => ?_) _
  obtain ⟨v, hv⟩ := hread i hi
  obtain ⟨w, hw⟩ := hweight i v
  exact ⟨_, by rw [hv, Outcome.ok_bind, hw]; rfl⟩

end Window

end OrbitVectors

end Alus.S1tbx
