import Mathlib.Tactic.Ring
import Alus.Lib.Sampling
import Alus.Lib.Numerals

/-!
# The bilinear resampling kernels

`ComputeIndex` and the resampling of `bilinear_interpolation.cuh`, over exact numbers. The pixel
`n` covers `n .. n + 1`, with its centre at `n + 0.5`, and every caller adds `0.5` to a position
that counts from the centres.
-/

namespace Alus.SnapEngine

open Alus.Lib

variable {T : Type} [Field T] [LinearOrder T] [IsStrictOrderedRing T] [FloorRing T]

/-- `i[0]`, `i[1]` and `ki[0]`, and likewise `j` and `kj`. -/
structure AxisIndex (T : Type) where
  first : Int
  second : Int
  weight : T

structure ResamplingIndex (T : Type) where
  i : AxisIndex T
  j : AxisIndex T

/-- `ComputeIndex` along one axis of this size. -/
def axisIndex (x : T) (size : Int) : AxisIndex T :=
  let i0 := ⌊x⌋
  let di := x - ((i0 : T) + 1 / 2)
  if 0 ≤ di then ⟨clampTo 0 (size - 1) i0, clampTo 0 (size - 1) (i0 + 1), di⟩
  else ⟨clampTo 0 (size - 1) (i0 - 1), clampTo 0 (size - 1) i0, di + 1⟩

/-- `ComputeIndex`. -/
def computeIndex (x y : T) (width height : Int) : ResamplingIndex T :=
  ⟨axisIndex x width, axisIndex y height⟩

/-- `ResampleNoDem`. -/
def resampleNoDem (getSamples : ResamplingIndex T → Outcome (Corners T × Bool))
    (index : ResamplingIndex T) : Outcome T := do
  let (samples, allValid) ← getSamples index
  if allValid then return samples.blend index.i.weight index.j.weight else return samples.v00

/-- From the centre of a pixel: its index and the next one, and the fraction between. -/
theorem axisIndex_add_half (x : T) (size : Int) :
    axisIndex (x + 1 / 2) size =
      ⟨clampTo 0 (size - 1) ⌊x⌋, clampTo 0 (size - 1) (⌊x⌋ + 1), Int.fract x⟩ := by
  have hx : (⌊x⌋ : T) + Int.fract x = x := Int.floor_add_fract x
  have h0 := Int.fract_nonneg x
  have h1 := Int.fract_lt_one x
  unfold axisIndex
  by_cases hhalf : Int.fract x < 1 / 2
  -- the first half of the pixel: the cell starts here
  · have hfloor : ⌊x + 1 / 2⌋ = ⌊x⌋ := by
      rw [Int.floor_eq_iff]
      constructor <;> linarith
    have hdi : x + 1 / 2 - ((⌊x⌋ : T) + 1 / 2) = Int.fract x := by linarith
    simp only [hfloor, hdi, if_pos h0]
  · have hfloor : ⌊x + 1 / 2⌋ = ⌊x⌋ + 1 := by
      rw [Int.floor_eq_iff]
      push_cast
      constructor <;> linarith
    have hdi : x + 1 / 2 - (((⌊x⌋ + 1 : Int) : T) + 1 / 2) = Int.fract x - 1 := by
      push_cast
      linarith
    simp only [hfloor, hdi]
    rw [if_neg (by linarith), show ⌊x⌋ + 1 - 1 = ⌊x⌋ by omega,
      show Int.fract x - 1 + 1 = Int.fract x by ring]

theorem computeIndex_add_half (x y : T) (width height : Int) :
    computeIndex (x + 1 / 2) (y + 1 / 2) width height =
      ⟨⟨clampTo 0 (width - 1) ⌊x⌋, clampTo 0 (width - 1) (⌊x⌋ + 1), Int.fract x⟩,
        ⟨clampTo 0 (height - 1) ⌊y⌋, clampTo 0 (height - 1) (⌊y⌋ + 1), Int.fract y⟩⟩ := by
  rw [computeIndex, axisIndex_add_half, axisIndex_add_half]

end Alus.SnapEngine
