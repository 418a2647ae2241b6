import Mathlib.Algebra.Field.Basic
import Mathlib.Analysis.Real.Sqrt
import Alus.Lib.Reduction
import Alus.FeatureExtractionGabor.PatchedImage

/-!
# The features of the patches

The padded patches are convolved with a filter (`conv_kernel.cu`), and of each patch the mean and
the standard deviation of the convolution are computed by one block (`patch_reduction.cu`).
Arithmetic is exact, the indices are `int`s, and nothing is known of a cell that was not written.
-/

namespace Alus.FeatureExtractionGabor

open Alus.Lib

variable {F : Type} [Field F]

/-! ## Convolution -/

/-- `Conv2DPatchNaive`, the thread at `x` and `y`. -/
def conv2DPatchNaive (src kernel : Nat → F) (width height patchSize kernelSize x y : Nat) :
    Outcome (Option (Nat × Option F)) := do
  let paddedPatchSize ← index32 (kernelSize + patchSize)
  if width ≤ x ∨ height ≤ y then return none
  else
    let patchXStart := x / paddedPatchSize * paddedPatchSize
    let patchYStart := y / paddedPatchSize * paddedPatchSize
    let patchXEnd ← index32 (patchXStart + paddedPatchSize)
    let patchYEnd ← index32 (patchYStart + paddedPatchSize)
    let destIdx ← index32 (x + y * width)
    let padSize := kernelSize / 2
    if x < patchXStart + padSize ∨ patchXEnd - padSize ≤ x ∨ y < patchYStart + padSize ∨
        patchYEnd - padSize ≤ y then
      return some (destIdx, some 0)
    else
      let acc ← (List.range kernelSize).foldlM (fun acc kY =>
        (List.range kernelSize).foldlM (fun acc kX => do
          let maskIdx ← index32 (kX + kY * kernelSize)
          let srcIdx ← index32 (x - padSize + kX + (kY + (y - padSize)) * width)
          return acc + kernel maskIdx * src srcIdx) acc) 0
      return some (destIdx, some acc)

def launchConvKernel (s : Scheduler) (src kernel : Nat → F)
    (width height patchSize kernelSize : Nat) (dest : Nat → Option F) :
    Outcome (Nat → Option F) := do
  let columns ← index32 (width + 15)
  let rows ← index32 (height + 15)
  launchStores s ⟨columns / 16, rows / 16⟩ ⟨16, 16⟩
    (conv2DPatchNaive src kernel width height patchSize kernelSize) dest

/-! ## Reductions -/

/-- `BLOCK_X_SIZE`. -/
def blockXSize : Nat := 32

/-- `BLOCK_Y_SIZE`. -/
def blockYSize : Nat := 32

/-- What the thread adds up of the inner pixels of the patch of its block. -/
def patchSum (src : Nat → Option F) (term : Option F → Option F)
    (patchSize edgeSize nXPatches xStep : Nat) (t : ThreadStep) : Outcome (Option F) := do
  let padSize := edgeSize / 2
  let paddedPatchSize ← index32 (patchSize + edgeSize)
  let srcWidth ← index32 (paddedPatchSize * nXPatches)
  let patchStartX ← index32 (t.blockX * paddedPatchSize)
  let patchStartY ← index32 (t.blockY * paddedPatchSize)
  let startX ← index32 (patchStartX + t.threadX + padSize)
  let startY ← index32 (patchStartY + t.threadY + padSize)
  let lastX ← index32 (patchStartX + padSize + patchSize)
  let lastY ← index32 (patchStartY + padSize + patchSize)
  (stridedRange startY lastY blockYSize).foldlM (fun acc y => do
    let tmp ← (stridedRange startX lastX xStep).foldlM (fun tmp x => do
      let idx ← index32 (x + y * srcWidth)
      -- `x += xStep`
      let _ ← index32 (x + xStep)
      return Option.map₂ (· + ·) tmp (term (src idx))) (some 0)
    let _ ← index32 (y + blockYSize)
    return Option.map₂ (· + ·) acc tmp) (some 0)

/-- `result_idx`. -/
def resultIdx (nXPatches blockX blockY : Nat) : Outcome Nat :=
  index32 (blockX + blockY * nXPatches)

/-- A quotient by a whole number, of which there is none for zero. -/
def quotient (a : F) (n : Int) : Option F := if n = 0 then none else some (a / n)

def patchMeanReduction (src : Nat → Option F) (patchSize edgeSize nXPatches : Nat) :
    ThreadStep → (ReductionCell → Option F) → Outcome (Option (ReductionCell × Option F)) :=
  reduceStep ⟨blockXSize, blockYSize⟩ 10 (resultIdx nXPatches)
    (patchSum src id patchSize edgeSize nXPatches blockXSize)
    fun _ _ acc => do
      let count ← int32 (patchSize * patchSize)
      return acc.bind fun acc => quotient acc count

/-- `PatchStdDevReduction`. It steps by the height of the block in both directions. -/
def patchStdDevReduction (sqrtf : F → F) (src patchMeans : Nat → Option F)
    (patchSize edgeSize nXPatches : Nat) :
    ThreadStep → (ReductionCell → Option F) → Outcome (Option (ReductionCell × Option F)) :=
  reduceStep ⟨blockXSize, blockYSize⟩ 10 (resultIdx nXPatches)
    (fun t => do
      let mean := patchMeans (← resultIdx nXPatches t.blockX t.blockY)
      patchSum src (fun val => Option.map₂ (fun val mean => (val - mean) * (val - mean)) val mean)
        patchSize edgeSize nXPatches blockYSize t)
    fun _ _ acc => do
      let count ← int32 (patchSize * patchSize)
      return (acc.bind fun acc => quotient acc (count - 1)).map sqrtf

/-- The results of a reduction whose buffer was not written before. -/
def launchReduction (s : Scheduler) (nXPatches nYPatches : Nat)
    (kernel : ThreadStep → (ReductionCell → Option F) →
      Outcome (Option (ReductionCell × Option F))) : Outcome (Nat → Option F) := do
  let m ← launchSteps s ⟨nXPatches, nYPatches⟩ ⟨blockXSize, blockYSize⟩ 12 kernel fun _ => none
  return fun index => m (.result index)

def launchPatchMeanReduction (s : Scheduler) (src : Nat → Option F)
    (patchSize edgeSize nXPatches nYPatches : Nat) : Outcome (Nat → Option F) :=
  launchReduction s nXPatches nYPatches (patchMeanReduction src patchSize edgeSize nXPatches)

def launchPatchStdDevReduction (s : Scheduler) (sqrtf : F → F) (src patchMeans : Nat → Option F)
    (patchSize edgeSize nXPatches nYPatches : Nat) : Outcome (Nat → Option F) :=
  launchReduction s nXPatches nYPatches
    (patchStdDevReduction sqrtf src patchMeans patchSize edgeSize nXPatches)

/-! ## The features of an image -/

/-- The device buffers after the three launches of `CalculateGabor`. -/
structure GaborBuffers (F : Type) where
  conv : Nat → Option F
  means : Nat → Option F
  stdDevs : Nat → Option F

/-- The launches for one band and one filter. -/
def calculateGabor (s : Scheduler) (sqrtf : F → F) (src kernel : Nat → F)
    (patchesX patchesY patchSize edgeSize : Nat) : Outcome (GaborBuffers F) := do
  let width ← index32 (patchesX * (patchSize + edgeSize))
  let height ← index32 (patchesY * (patchSize + edgeSize))
  let conv ← launchConvKernel s src kernel width height patchSize edgeSize fun _ => none
  let means ← launchPatchMeanReduction s conv patchSize edgeSize patchesX patchesY
  let stdDevs ← launchPatchStdDevReduction s sqrtf conv means patchSize edgeSize patchesX patchesY
  return ⟨conv, means, stdDevs⟩

section Features

variable (src kernel : Nat → F) (nX nY p f : Nat) (k : Nat × Nat)

/-- The sum over the neighbourhood of an inner pixel, all of it in its padded patch. -/
def convolution (i j : Nat) : F :=
  ∑ kY ∈ Finset.range f, ∑ kX ∈ Finset.range f, kernel (kX + kY * f) *
    src (paddedIndex (nX * (p + f)) (p + f) k (i + kY) (j + kX))

/-- The mean over the `p * p` inner pixels of a patch. -/
def patchMean : F :=
  (∑ i ∈ Finset.range p, ∑ j ∈ Finset.range p, convolution src kernel nX p f k i j) / (p * p)

def patchVariance : F :=
  (∑ i ∈ Finset.range p, ∑ j ∈ Finset.range p,
    (convolution src kernel nX p f k i j - patchMean src kernel nX p f k) *
      (convolution src kernel nX p f k i j - patchMean src kernel nX p f k)) / (p * p - 1)

/-- The buffers hold the features of a patch. -/
structure PatchFeatures (sqrtf : F → F) (buffers : GaborBuffers F) : Prop where
  inside : ∀ i < p, ∀ j < p, ∀ kY < f, ∀ kX < f, i + kY < p + f ∧ j + kX < p + f
  conv : ∀ i < p, ∀ j < p,
    buffers.conv (paddedIndex (nX * (p + f)) (p + f) k (f / 2 + i) (f / 2 + j)) =
      some (convolution src kernel nX p f k i j)
  mean : buffers.means (k.1 + k.2 * nX) = some (patchMean src kernel nX p f k)
  stdDev : buffers.stdDevs (k.1 + k.2 * nX) = some (sqrtf (patchVariance src kernel nX p f k))

end Features

/-! ## The convolution of an image -/

/-- There are patches, of more than one pixel, and the elements of the padded image are counted by
an `int`. -/
structure ImageBounds (nX nY p f : Nat) : Prop where
  twoLe : 2 ≤ p
  columns : 0 < nX
  rows : 0 < nY
  elements : nX * (p + f) * (nY * (p + f)) ≤ 2147483648

namespace ImageBounds

variable {nX nY p f : Nat} (h : ImageBounds nX nY p f)
include h

theorem le_width : p + f ≤ nX * (p + f) := Nat.le_mul_of_pos_left _ h.columns

theorem le_height : p + f ≤ nY * (p + f) := Nat.le_mul_of_pos_left _ h.rows

theorem width_le : nX * (p + f) ≤ 1073741824 := by
  have hp := h.twoLe
  have hdouble : nX * (p + f) * 2 ≤ nX * (p + f) * (nY * (p + f)) :=
    Nat.mul_le_mul_left _ ((by omega : 2 ≤ p + f).trans h.le_height)
  have helements := h.elements
  omega

theorem height_le : nY * (p + f) ≤ 1073741824 := by
  have hp := h.twoLe
  have hdouble : 2 * (nY * (p + f)) ≤ nX * (p + f) * (nY * (p + f)) :=
    Nat.mul_le_mul_right _ ((by omega : 2 ≤ p + f).trans h.le_width)
  have helements := h.elements
  omega

/-- The index of an element fits. -/
theorem index_lt {x y : Nat} (hx : x < nX * (p + f)) (hy : y < nY * (p + f)) :
    x + y * (nX * (p + f)) < 2147483648 := by
  have hindex := row_index_lt hx hy
  have helements := h.elements
  omega

end ImageBounds

section Conv

variable {src kernel : Nat → F} {nX nY p f x y : Nat}

/-- The pixel is one of the border that is zeroed. -/
def ZeroPadded (p f x y : Nat) : Prop :=
  x < x / (f + p) * (f + p) + f / 2 ∨ x / (f + p) * (f + p) + (f + p) - f / 2 ≤ x ∨
    y < y / (f + p) * (f + p) + f / 2 ∨ y / (f + p) * (f + p) + (f + p) - f / 2 ≤ y

instance : Decidable (ZeroPadded p f x y) := inferInstanceAs (Decidable (_ ∨ _))

theorem patchEnd_le {n : Nat} (hx : x < n * (p + f)) :
    x / (f + p) * (f + p) + (f + p) ≤ n * (p + f) := by
  have hpatch : x / (f + p) < n := by
    rw [Nat.add_comm f p]
    exact Nat.div_lt_of_lt_mul (by rwa [Nat.mul_comm])
  calc x / (f + p) * (f + p) + (f + p) = (x / (f + p) + 1) * (p + f) := by ring
    _ ≤ n * (p + f) := Nat.mul_le_mul_right _ hpatch

theorem conv2DPatchNaive_eq (h : ImageBounds nX nY p f) (hx : x < nX * (p + f))
    (hy : y < nY * (p + f)) :
    conv2DPatchNaive src kernel (nX * (p + f)) (nY * (p + f)) p f x y =
      .ok (some (x + y * (nX * (p + f)), some (if ZeroPadded p f x y then 0 else
        ∑ kY ∈ Finset.range f, ∑ kX ∈ Finset.range f, kernel (kX + kY * f) *
          src (x - f / 2 + kX + (kY + (y - f / 2)) * (nX * (p + f)))))) := by
  have hwidth := h.width_le
  have hheight := h.height_le
  have hendX := patchEnd_le hx
  have hendY := patchEnd_le hy
  have hle := h.le_width
  rw [conv2DPatchNaive, index32_of_lt (show f + p < 2147483648 by omega), Outcome.ok_bind,
    if_neg (by omega)]
  dsimp only
  rw [index32_of_lt (show x / (f + p) * (f + p) + (f + p) < 2147483648 by omega), Outcome.ok_bind,
    index32_of_lt (show y / (f + p) * (f + p) + (f + p) < 2147483648 by omega), Outcome.ok_bind,
    index32_of_lt (h.index_lt hx hy), Outcome.ok_bind]
  by_cases hzero : ZeroPadded p f x y
  · rw [if_pos hzero, if_pos (show _ ∨ _ from hzero)]
    rfl
  · rw [if_neg hzero, if_neg (show ¬(_ ∨ _) from hzero)]
    unfold ZeroPadded at hzero
    -- the neighbourhood ends with the padded patch
    have hterm : ∀ kY ∈ List.range f, ∀ kX ∈ List.range f, ∀ acc : F, (do
        let maskIdx ← index32 (kX + kY * f)
        let srcIdx ← index32 (x - f / 2 + kX + (kY + (y - f / 2)) * (nX * (p + f)))
        return acc + kernel maskIdx * src srcIdx : Outcome F) =
          .ok (acc + kernel (kX + kY * f) *
            src (x - f / 2 + kX + (kY + (y - f / 2)) * (nX * (p + f)))) := by
      intro kY hkY kX hkX acc
      have hkY := List.mem_range.mp hkY
      have hkX := List.mem_range.mp hkX
      have hmask : kX + kY * f < 2147483648 := by
        have hlt : kX + kY * f < kX + kY * (nX * (p + f)) + 1 :=
          Nat.lt_succ_of_le (Nat.add_le_add_left (Nat.mul_le_mul_left kY (by omega)) kX)
        have hindex := h.index_lt (x := kX) (y := kY) (by omega)
          (by have := h.le_height; omega)
        omega
      rw [index32_of_lt hmask, index32_of_lt (h.index_lt (by omega) (by omega))]
      rfl
    have hrow : ∀ kY ∈ List.range f, ∀ acc : F,
        (List.range f).foldlM (fun acc kX => do
          let maskIdx ← index32 (kX + kY * f)
          let srcIdx ← index32 (x - f / 2 + kX + (kY + (y - f / 2)) * (nX * (p + f)))
          return acc + kernel maskIdx * src srcIdx : F → Nat → Outcome F) acc =
        .ok (acc + ∑ kX ∈ Finset.range f, kernel (kX + kY * f) *
          src (x - f / 2 + kX + (kY + (y - f / 2)) * (nX * (p + f)))) := by
      intro kY hkY acc
      rw [Outcome.foldlM_eq_ok (hterm kY hkY), foldl_add_map, sum_map_range]
    rw [Outcome.foldlM_eq_ok hrow, foldl_add_map, sum_map_range, zero_add]
    rfl

theorem conv2DPatchNaive_outside (h : ImageBounds nX nY p f)
    (hout : nX * (p + f) ≤ x ∨ nY * (p + f) ≤ y) :
    conv2DPatchNaive src kernel (nX * (p + f)) (nY * (p + f)) p f x y = .ok none := by
  have hwidth := h.width_le
  have hle := h.le_width
  rw [conv2DPatchNaive, index32_of_lt (show f + p < 2147483648 by omega), Outcome.ok_bind,
    if_pos hout]
  rfl

/-- The grid that covers the image. -/
theorem convGrid_valid (h : ImageBounds nX nY p f) (hrows : nY * (p + f) ≤ 1048560) :
    Dim3.Valid ⟨(nX * (p + f) + 15) / 16, (nY * (p + f) + 15) / 16⟩ := by
  have hwidth := h.width_le
  have hle := h.le_width
  have hle' := h.le_height
  have hp := h.twoLe
  unfold Dim3.Valid
  dsimp only
  omega

/-- Whatever the order of the threads, each pixel of the image is written. -/
theorem exists_launchConvKernel (s : Scheduler) (src kernel : Nat → F)
    (h : ImageBounds nX nY p f) (hrows : nY * (p + f) ≤ 1048560) (dest : Nat → Option F) :
    ∃ conv, launchConvKernel s src kernel (nX * (p + f)) (nY * (p + f)) p f dest = .ok conv ∧
      ∀ x < nX * (p + f), ∀ y < nY * (p + f),
        conv2DPatchNaive src kernel (nX * (p + f)) (nY * (p + f)) p f x y =
          .ok (some (x + y * (nX * (p + f)), conv (x + y * (nX * (p + f))))) := by
  have hwidth := h.width_le
  have hvalid := convGrid_valid h hrows
  have hthread : ∀ x y, ∃ w,
      conv2DPatchNaive src kernel (nX * (p + f)) (nY * (p + f)) p f x y = .ok w := by
    intro x y
    by_cases hout : nX * (p + f) ≤ x ∨ nY * (p + f) ≤ y
    · exact ⟨_, conv2DPatchNaive_outside h hout⟩
    · exact ⟨_, conv2DPatchNaive_eq h (by omega) (by omega)⟩
  obtain ⟨conv, hconv⟩ := exists_launchStores s _ ⟨16, 16⟩ (fun x _ y _ => hthread x y) dest
  refine ⟨conv, ?_, fun x hx y hy => ?_⟩
  · rw [launchConvKernel, index32_of_lt (show nX * (p + f) + 15 < 2147483648 by omega),
      Outcome.ok_bind, index32_of_lt (show nY * (p + f) + 15 < 2147483648 by omega),
      Outcome.ok_bind]
    exact hconv
  · rw [conv2DPatchNaive_eq h hx hy]
    refine congrArg (fun v => Outcome.ok (some (_, v))) (launchStores_stored hconv hvalid
      (show x < (nX * (p + f) + 15) / 16 * 16 by omega)
      (show y < (nY * (p + f) + 15) / 16 * 16 by omega) (conv2DPatchNaive_eq h hx hy) ?_).symm
    intro x' y' b hb
    -- no other thread writes there
    by_cases hout : nX * (p + f) ≤ x' ∨ nY * (p + f) ≤ y'
    · rw [conv2DPatchNaive_outside h hout] at hb
      cases hb
    · rw [conv2DPatchNaive_eq h (by omega) (by omega)] at hb
      simp only [Outcome.ok.injEq, Option.some.injEq, Prod.mk.injEq] at hb
      obtain ⟨hindex, rfl⟩ := hb
      rw [Nat.add_comm x', Nat.add_comm x] at hindex
      obtain ⟨rfl, rfl⟩ := row_index_inj (by omega) hx hindex
      rfl

/-- At an inner pixel the sum is the one over the neighbourhood. -/
theorem conv2DPatchNaive_inner (h : ImageBounds nX nY p f) {k : Nat × Nat} (hcolumn : k.1 < nX)
    (hrow : k.2 < nY) {i j : Nat} (hi : i < p) (hj : j < p) :
    conv2DPatchNaive src kernel (nX * (p + f)) (nY * (p + f)) p f
        (k.1 * (p + f) + (f / 2 + j)) (k.2 * (p + f) + (f / 2 + i)) =
      .ok (some (paddedIndex (nX * (p + f)) (p + f) k (f / 2 + i) (f / 2 + j),
        some (convolution src kernel nX p f k i j))) := by
  have hwithin : ∀ {m n c : Nat}, m < n → c < p + f → m * (p + f) + c < n * (p + f) :=
    fun hm hc => (row_index_lt hc hm).trans_eq (Nat.mul_comm _ _)
  have hpatch : ∀ {m c : Nat}, c < p + f → (m * (p + f) + c) / (f + p) * (f + p) = m * (p + f) := by
    intro m c hc
    rw [Nat.add_comm f p, Nat.mul_comm m, Nat.mul_add_div (by omega), Nat.div_eq_of_lt hc,
      Nat.add_zero, Nat.mul_comm]
  have hinner : ¬ ZeroPadded p f (k.1 * (p + f) + (f / 2 + j)) (k.2 * (p + f) + (f / 2 + i)) := by
    unfold ZeroPadded
    rw [hpatch (by omega), hpatch (by omega)]
    omega
  rw [conv2DPatchNaive_eq h (hwithin hcolumn (by omega)) (hwithin hrow (by omega)),
    if_neg hinner, convolution, Nat.add_comm (k.1 * (p + f) + _)]
  simp only [paddedIndex, Outcome.ok.injEq, Option.some.injEq, Prod.mk.injEq, true_and]
  refine Finset.sum_congr rfl fun kY _ => Finset.sum_congr rfl fun kX _ => ?_
  rw [show k.1 * (p + f) + (f / 2 + j) - f / 2 + kX = k.1 * (p + f) + (j + kX) by omega,
    show kY + (k.2 * (p + f) + (f / 2 + i) - f / 2) = k.2 * (p + f) + (i + kY) by omega,
    Nat.add_comm (k.1 * (p + f) + _)]

end Conv

/-! ## The reductions of a patch -/

section Reductions

variable {src : Nat → Option F} {nX nY p f : Nat}

/-- What the thread of a place adds up of a patch. -/
def placeSum (p : Nat) (v : Nat → Nat → F) (place : Nat) : F :=
  ((stridedRange (place / blockXSize) p blockYSize).map fun i =>
    ((stridedRange (place % blockXSize) p blockXSize).map fun j => v i j).sum).sum

/-- The places of a block add up each inner pixel once. -/
theorem sum_placeSum (p : Nat) (v : Nat → Nat → F) :
    ∑ place ∈ Finset.range (2 ^ 10), placeSum p v place =
      ∑ i ∈ Finset.range p, ∑ j ∈ Finset.range p, v i j :=
  sum_rectangle (by decide) (by decide) p p v

theorem patchSum_eq (h : ImageBounds nX nY p f) {term : Option F → Option F} {t : ThreadStep}
    (hbx : t.blockX < nX) (hby : t.blockY < nY) (htx : t.threadX < blockXSize)
    (hty : t.threadY < blockYSize) {v : Nat → Nat → F}
    (hsrc : ∀ i < p, ∀ j < p, term (src (paddedIndex (nX * (p + f)) (p + f)
      (t.blockX, t.blockY) (f / 2 + i) (f / 2 + j))) = some (v i j)) :
    patchSum src term p f nX blockXSize t =
      .ok (some (placeSum p v (t.sharedIdx ⟨blockXSize, blockYSize⟩))) := by
  -- no index of the loops passes the bounds of an int
  have hwidth := h.width_le
  have hheight := h.height_le
  have hle := h.le_width
  have hstartX : t.blockX * (p + f) + (p + f) ≤ nX * (p + f) := by
    rw [← Nat.add_one_mul]
    exact Nat.mul_le_mul_right _ hbx
  have hstartY : t.blockY * (p + f) + (p + f) ≤ nY * (p + f) := by
    rw [← Nat.add_one_mul]
    exact Nat.mul_le_mul_right _ hby
  have hthreadX : t.threadX < 32 := htx
  have hthreadY : t.threadY < 32 := hty
  -- the thread's place in shared memory gives back its column and its row
  have hplaceX : t.sharedIdx ⟨blockXSize, blockYSize⟩ % blockXSize = t.threadX := sharedIdx_mod htx
  have hplaceY : t.sharedIdx ⟨blockXSize, blockYSize⟩ / blockXSize = t.threadY := sharedIdx_div htx
  rw [patchSum]
  rw [index32_of_lt (show p + f < 2147483648 by omega), Outcome.ok_bind, Nat.mul_comm (p + f) nX,
    index32_of_lt (show nX * (p + f) < 2147483648 by omega), Outcome.ok_bind,
    index32_of_lt (show t.blockX * (p + f) < 2147483648 by omega), Outcome.ok_bind,
    index32_of_lt (show t.blockY * (p + f) < 2147483648 by omega), Outcome.ok_bind,
    index32_of_lt (show t.blockX * (p + f) + t.threadX + f / 2 < 2147483648 by omega),
    Outcome.ok_bind,
    index32_of_lt (show t.blockY * (p + f) + t.threadY + f / 2 < 2147483648 by omega),
    Outcome.ok_bind,
    index32_of_lt (show t.blockX * (p + f) + f / 2 + p < 2147483648 by omega), Outcome.ok_bind,
    index32_of_lt (show t.blockY * (p + f) + f / 2 + p < 2147483648 by omega), Outcome.ok_bind,
    Nat.add_right_comm _ t.threadX, Nat.add_right_comm _ t.threadY, stridedRange_add,
    stridedRange_add]
  -- one step of the inner loop adds one term
  have hpixel : ∀ i < p, ∀ j ∈ stridedRange t.threadX p blockXSize, ∀ tmp : Option F, (do
      let idx ← index32 (t.blockX * (p + f) + f / 2 + j +
        (t.blockY * (p + f) + f / 2 + i) * (nX * (p + f)))
      let _ ← index32 (t.blockX * (p + f) + f / 2 + j + blockXSize)
      return Option.map₂ (· + ·) tmp (term (src idx)) : Outcome (Option F)) =
        .ok (Option.map₂ (· + ·) tmp (some (v i j))) := by
    intro i hi j hj tmp
    have hj := ((mem_stridedRange (by decide)).mp hj).1
    have hnext : t.blockX * (p + f) + f / 2 + j + blockXSize < 2147483648 := by
      unfold blockXSize
      omega
    rw [index32_of_lt (h.index_lt (by omega) (by omega)), index32_of_lt hnext,
      ← hsrc i hi j hj, paddedIndex,
      Nat.add_comm (t.blockX * (p + f) + f / 2 + j), Nat.add_assoc (t.blockX * (p + f)),
      Nat.add_assoc (t.blockY * (p + f))]
    rfl
  -- one step of the outer loop adds the sum of a row's terms
  have hrow : ∀ i ∈ stridedRange t.threadY p blockYSize, ∀ acc : Option F, (do
      let tmp ← ((stridedRange t.threadX p blockXSize).map
          (t.blockX * (p + f) + f / 2 + ·)).foldlM (fun tmp x => do
        let idx ← index32 (x + (t.blockY * (p + f) + f / 2 + i) * (nX * (p + f)))
        let _ ← index32 (x + blockXSize)
        return Option.map₂ (· + ·) tmp (term (src idx))) (some 0)
      let _ ← index32 (t.blockY * (p + f) + f / 2 + i + blockYSize)
      return Option.map₂ (· + ·) acc tmp : Outcome (Option F)) =
        .ok (Option.map₂ (· + ·) acc
          (some ((stridedRange t.threadX p blockXSize).map fun j => v i j).sum)) := by
    intro i hi acc
    have hi := ((mem_stridedRange (by decide)).mp hi).1
    have hnext : t.blockY * (p + f) + f / 2 + i + blockYSize < 2147483648 := by
      unfold blockYSize
      omega
    rw [List.foldlM_map, Outcome.foldlM_eq_ok (hpixel i hi), foldl_map₂_some, zero_add,
      Outcome.ok_bind, index32_of_lt hnext]
    rfl
  rw [List.foldlM_map, Outcome.foldlM_eq_ok hrow, foldl_map₂_some, zero_add, placeSum, hplaceX,
    hplaceY]

theorem gridIdx_inj {bx by' bx' by'' : Nat} (hbx : bx < nX) (hbx' : bx' < nX)
    (heq : bx + by' * nX = bx' + by'' * nX) : bx = bx' ∧ by' = by'' := by
  rw [Nat.add_comm bx, Nat.add_comm bx'] at heq
  exact row_index_inj hbx hbx' heq

theorem resultIdx_eq (h : ImageBounds nX nY p f) {bx by' : Nat} (hbx : bx < nX) (hby : by' < nY) :
    resultIdx nX bx by' = .ok (bx + by' * nX) := by
  have hindex := row_index_lt hbx hby
  have helements := h.elements
  have hp := h.twoLe
  have hpatches : nX * nY ≤ nX * (p + f) * (nY * (p + f)) :=
    Nat.mul_le_mul (Nat.le_mul_of_pos_right _ (by omega)) (Nat.le_mul_of_pos_right _ (by omega))
  exact index32_of_lt (by omega)

theorem count_eq (h : ImageBounds nX nY p f) : int32 ((p : Int) * p) = .ok ((p : Int) * p) := by
  have hedge : p ≤ 46340 := by
    by_contra hlarge
    have hpixels : p * p ≤ nX * (p + f) * (nY * (p + f)) :=
      Nat.mul_le_mul ((Nat.le_add_right p f).trans h.le_width)
        ((Nat.le_add_right p f).trans h.le_height)
    have hsquare : 46341 * 46341 ≤ p * p := Nat.mul_le_mul (by omega) (by omega)
    have helements := h.elements
    omega
  have hsquare : p * p ≤ 46340 * 46340 := Nat.mul_le_mul hedge hedge
  refine int32_of_fits (fits32_iff.mpr ?_)
  norm_cast
  omega

/-- A reduction of the values that the inner pixels have, for both kernels. -/
theorem exists_launchReduction (s : Scheduler) (h : ImageBounds nX nY p f) (hgrid : nY ≤ 65535)
    (threadSum : ThreadStep → Outcome (Option F))
    (finish : Nat → Nat → Option F → Outcome (Option F)) (total : Option F → Option F)
    (v : Nat × Nat → Nat → Nat → F)
    (hsum : ∀ t : ThreadStep, t.blockX < nX → t.blockY < nY → t.threadX < blockXSize →
      t.threadY < blockYSize → threadSum t = .ok (some (placeSum p (v (t.blockX, t.blockY))
        (t.sharedIdx ⟨blockXSize, blockYSize⟩))))
    (hfinish : ∀ bx by' acc, finish bx by' acc = .ok (total acc)) :
    ∃ results, launchReduction s nX nY
        (reduceStep ⟨blockXSize, blockYSize⟩ 10 (resultIdx nX) threadSum finish) = .ok results ∧
      ∀ k : Nat × Nat, k.1 < nX → k.2 < nY → results (k.1 + k.2 * nX) =
        total (some (∑ i ∈ Finset.range p, ∑ j ∈ Finset.range p, v k i j)) := by
  have hp := h.twoLe
  have hcolumns := h.columns
  have hrows := h.rows
  have hwidth := h.width_le
  have hfew : nX ≤ nX * (p + f) := Nat.le_mul_of_pos_right _ (by omega)
  have hvalid : Dim3.Valid ⟨nX, nY⟩ := by
    unfold Dim3.Valid
    dsimp only
    omega
  obtain ⟨m, hm, hresults⟩ := exists_launchReduce s ⟨nX, nY⟩ ⟨blockXSize, blockYSize⟩ 10
    (fun bx by' => bx + by' * nX) (fun bx by' => placeSum p (v (bx, by'))) (fun _ _ => total)
    hvalid (by decide) (fun bx by' bx' by'' hbx _ hbx' _ heq => gridIdx_inj hbx hbx' heq)
    (fun t hbx hby htx hty => ⟨hsum t hbx hby htx hty, hfinish _ _, resultIdx_eq h hbx hby⟩)
    fun _ => none
  refine ⟨fun index => m (.result index), ?_, fun k hbx hby => ?_⟩
  · rw [launchReduction]
    exact congrArg (· >>= _) hm
  · exact (hresults k.1 hbx k.2 hby).trans
      (congrArg (fun a => total (some a)) (sum_placeSum p (v k)))

theorem exists_launchPatchMeanReduction (s : Scheduler) (h : ImageBounds nX nY p f)
    (hgrid : nY ≤ 65535) {v : Nat × Nat → Nat → Nat → F}
    (hsrc : ∀ k : Nat × Nat, k.1 < nX → k.2 < nY → ∀ i < p, ∀ j < p,
      src (paddedIndex (nX * (p + f)) (p + f) k (f / 2 + i) (f / 2 + j)) = some (v k i j)) :
    ∃ means, launchPatchMeanReduction s src p f nX nY = .ok means ∧
      ∀ k : Nat × Nat, k.1 < nX → k.2 < nY → means (k.1 + k.2 * nX) =
        some ((∑ i ∈ Finset.range p, ∑ j ∈ Finset.range p, v k i j) / (p * p)) := by
  have hp := h.twoLe
  have hcount : ((p : Int) * p) ≠ 0 := mul_ne_zero (by omega) (by omega)
  obtain ⟨means, hmeans, hvalues⟩ := exists_launchReduction s h hgrid
    (patchSum src id p f nX blockXSize)
    (fun _ _ acc => do
      let count ← int32 ((p : Int) * p)
      return acc.bind fun acc => quotient acc count)
    (fun acc => acc.bind fun acc => quotient acc ((p : Int) * p)) v
    (fun t hbx hby htx hty => patchSum_eq h hbx hby htx hty (hsrc (t.blockX, t.blockY) hbx hby))
    fun _ _ acc => by rw [count_eq h]; rfl
  refine ⟨means, hmeans, fun k hbx hby => (hvalues k hbx hby).trans ?_⟩
  rw [Option.bind_some, quotient, if_neg hcount]
  push_cast
  rfl

theorem exists_launchPatchStdDevReduction (s : Scheduler) (sqrtf : F → F)
    (h : ImageBounds nX nY p f) (hgrid : nY ≤ 65535) {patchMeans : Nat → Option F}
    {v : Nat × Nat → Nat → Nat → F} {mean : Nat × Nat → F}
    (hsrc : ∀ k : Nat × Nat, k.1 < nX → k.2 < nY → ∀ i < p, ∀ j < p,
      src (paddedIndex (nX * (p + f)) (p + f) k (f / 2 + i) (f / 2 + j)) = some (v k i j))
    (hmean : ∀ k : Nat × Nat, k.1 < nX → k.2 < nY → patchMeans (k.1 + k.2 * nX) = some (mean k)) :
    ∃ stdDevs, launchPatchStdDevReduction s sqrtf src patchMeans p f nX nY = .ok stdDevs ∧
      ∀ k : Nat × Nat, k.1 < nX → k.2 < nY → stdDevs (k.1 + k.2 * nX) =
        some (sqrtf ((∑ i ∈ Finset.range p, ∑ j ∈ Finset.range p,
          (v k i j - mean k) * (v k i j - mean k)) / (p * p - 1))) := by
  have hp := h.twoLe
  -- a patch has at least four pixels, so the divisor is not zero
  have hcount : ((p : Int) * p - 1) ≠ 0 := by
    have hsquare : (2 : Int) * 2 ≤ p * p := mul_le_mul (by omega) (by omega) (by omega) (by omega)
    omega
  obtain ⟨stdDevs, hstdDevs, hvalues⟩ := exists_launchReduction s h hgrid
    (fun t => do
      let mean := patchMeans (← resultIdx nX t.blockX t.blockY)
      patchSum src (fun val => Option.map₂ (fun val mean => (val - mean) * (val - mean)) val mean)
        p f nX blockYSize t)
    (fun _ _ acc => do
      let count ← int32 ((p : Int) * p)
      return (acc.bind fun acc => quotient acc (count - 1)).map sqrtf)
    (fun acc => (acc.bind fun acc => quotient acc ((p : Int) * p - 1)).map sqrtf)
    (fun k i j => (v k i j - mean k) * (v k i j - mean k))
    (fun t hbx hby htx hty => by
      rw [resultIdx_eq h hbx hby, Outcome.ok_bind]
      refine patchSum_eq h hbx hby htx hty fun i hi j hj => ?_
      rw [hmean (t.blockX, t.blockY) hbx hby, hsrc (t.blockX, t.blockY) hbx hby i hi j hj]
      rfl)
    fun _ _ acc => by rw [count_eq h]; rfl
  refine ⟨stdDevs, hstdDevs, fun k hbx hby => (hvalues k hbx hby).trans ?_⟩
  rw [Option.bind_some, quotient, if_neg hcount, Option.map_some]
  push_cast
  rfl

end Reductions

/-! ## All the patches -/

section Gabor

variable {s : Scheduler} {sqrtf : F → F} {src kernel : Nat → F} {nX nY p f : Nat}

/-- The launches leave the features of every patch. -/
def GaborComputed (s : Scheduler) (sqrtf : F → F) (src kernel : Nat → F) (nX nY p f : Nat) : Prop :=
  ∀ k : Nat × Nat, k.1 < nX → k.2 < nY → ∃ buffers,
    calculateGabor s sqrtf src kernel nX nY p f = .ok buffers ∧
      PatchFeatures src kernel nX p f k sqrtf buffers

theorem gaborComputed_of_bounds (h : ImageBounds nX nY p f) (hgrid : nY ≤ 65535)
    (hrows : nY * (p + f) ≤ 1048560) : GaborComputed s sqrtf src kernel nX nY p f := by
  intro k hcolumn hrow
  have hp := h.twoLe
  have hwidth := h.width_le
  obtain ⟨conv, hconv, hpixels⟩ := exists_launchConvKernel s src kernel h hrows fun _ => none
  have hinner : ∀ k : Nat × Nat, k.1 < nX → k.2 < nY → ∀ i < p, ∀ j < p,
      conv (paddedIndex (nX * (p + f)) (p + f) k (f / 2 + i) (f / 2 + j)) =
        some (convolution src kernel nX p f k i j) := by
    intro k hcolumn hrow i hi j hj
    have hwithin : ∀ {m n c : Nat}, m < n → c < p + f → m * (p + f) + c < n * (p + f) :=
      fun hm hc => (row_index_lt hc hm).trans_eq (Nat.mul_comm _ _)
    have hpixel := hpixels _ (hwithin hcolumn (show f / 2 + j < p + f by omega)) _
      (hwithin hrow (show f / 2 + i < p + f by omega))
    rw [conv2DPatchNaive_inner h hcolumn hrow hi hj] at hpixel
    simp only [Outcome.ok.injEq, Option.some.injEq, Prod.mk.injEq] at hpixel
    rw [hpixel.1]
    exact hpixel.2.symm
  obtain ⟨means, hmeans, hmean⟩ := exists_launchPatchMeanReduction s h hgrid hinner
  obtain ⟨stdDevs, hstdDevs, hstdDev⟩ :=
    exists_launchPatchStdDevReduction s sqrtf h hgrid hinner hmean
  refine ⟨⟨conv, means, stdDevs⟩, ?_, fun i hi j hj kY hkY kX hkX => by omega,
    hinner k hcolumn hrow, hmean k hcolumn hrow, hstdDev k hcolumn hrow⟩
  rw [calculateGabor, index32_of_lt (show nX * (p + f) < 2147483648 by omega), Outcome.ok_bind,
    index32_of_lt (show nY * (p + f) < 2147483648 by omega), Outcome.ok_bind, hconv,
    Outcome.ok_bind, hmeans, Outcome.ok_bind, hstdDevs]
  rfl

/-- A patch of one pixel has no deviation: the sum is divided by zero. -/
theorem stdDev_one {conv means stdDevs : Nat → Option F}
    (h : launchPatchStdDevReduction s sqrtf conv means 1 f nX nY = .ok stdDevs) (index : Nat) :
    stdDevs index = none := by
  obtain ⟨m, hm, hresults⟩ := Outcome.bind_eq_ok.mp h
  rw [← Outcome.ok.inj hresults]
  refine result_of_finish hm (· = none) (fun _ => rfl) (fun _ _ acc a hfinish => ?_) index
  obtain ⟨count, hcount, hfinish⟩ := Outcome.bind_eq_ok.mp hfinish
  obtain ⟨-, rfl⟩ := int32_eq_ok.mp hcount
  rw [← Outcome.ok.inj hfinish]
  cases acc with
  | none => rfl
  | some acc =>
    rw [Option.bind_some, quotient, if_pos (by decide)]
    rfl

theorem edge_ne_one (hX : 0 < nX) (hY : 0 < nY) (h : GaborComputed s sqrtf src kernel nX nY p f) :
    p ≠ 1 := by
  rintro rfl
  obtain ⟨buffers, hrun, hfeatures⟩ := h (0, 0) hX hY
  obtain ⟨_, -, hrun⟩ := Outcome.bind_eq_ok.mp hrun
  obtain ⟨_, -, hrun⟩ := Outcome.bind_eq_ok.mp hrun
  obtain ⟨conv, -, hrun⟩ := Outcome.bind_eq_ok.mp hrun
  obtain ⟨means, -, hrun⟩ := Outcome.bind_eq_ok.mp hrun
  obtain ⟨stdDevs, hstdDevs, hrun⟩ := Outcome.bind_eq_ok.mp hrun
  obtain rfl := Outcome.ok.inj hrun
  have hnone : none = some _ := (stdDev_one hstdDevs _).symm.trans hfeatures.stdDev
  cases hnone

/-- The pixel of the last thread has an index, when the convolution returns. -/
theorem elements_le_of_conv {conv : Nat → Option F} (hX : 0 < nX * (p + f)) (hY : 0 < nY * (p + f))
    (hvalid : Dim3.Valid ⟨(nX * (p + f) + 15) / 16, (nY * (p + f) + 15) / 16⟩)
    (hconv : launchStores s ⟨(nX * (p + f) + 15) / 16, (nY * (p + f) + 15) / 16⟩ ⟨16, 16⟩
      (conv2DPatchNaive src kernel (nX * (p + f)) (nY * (p + f)) p f) (fun _ => none) = .ok conv) :
    nX * (p + f) * (nY * (p + f)) ≤ 2147483648 := by
  obtain ⟨w, hw⟩ := ok_of_launchStores hconv hvalid
    (show nX * (p + f) - 1 < (nX * (p + f) + 15) / 16 * 16 by omega)
    (show nY * (p + f) - 1 < (nY * (p + f) + 15) / 16 * 16 by omega)
  obtain ⟨_, -, hw⟩ := Outcome.bind_eq_ok.mp hw
  rw [if_neg (by omega)] at hw
  obtain ⟨_, -, hw⟩ := Outcome.bind_eq_ok.mp hw
  obtain ⟨_, -, hw⟩ := Outcome.bind_eq_ok.mp hw
  obtain ⟨_, hindex, -⟩ := Outcome.bind_eq_ok.mp hw
  have hlast := (index32_eq_ok.mp hindex).1
  have hrows : (nY * (p + f) - 1) * (nX * (p + f)) + nX * (p + f) =
      nX * (p + f) * (nY * (p + f)) := by
    rw [← Nat.add_one_mul, Nat.sub_add_cancel hY, Nat.mul_comm]
  omega

/-- The features are computed exactly when there is more than one pixel in a patch, the device
takes the grids, and the padded image has no more elements than there are indices. -/
theorem gaborComputed_iff (s : Scheduler) (sqrtf : F → F) (src kernel : Nat → F)
    (nX nY f : Nat) (hp : 1 ≤ p) :
    GaborComputed s sqrtf src kernel nX nY p f ↔
      nX = 0 ∨ nY = 0 ∨ (p ≠ 1 ∧ nY ≤ 65535 ∧ nY * (p + f) ≤ 1048560 ∧
        nX * (p + f) * (nY * (p + f)) ≤ 2147483648) := by
  constructor
  · intro h
    by_cases hX : nX = 0
    · exact Or.inl hX
    by_cases hY : nY = 0
    · exact Or.inr (Or.inl hY)
    refine Or.inr (Or.inr ?_)
    obtain ⟨buffers, hrun, hfeatures⟩ := h (0, 0) (Nat.pos_of_ne_zero hX) (Nat.pos_of_ne_zero hY)
    obtain ⟨width, hwidth, hrun⟩ := Outcome.bind_eq_ok.mp hrun
    obtain ⟨height, hheight, hrun⟩ := Outcome.bind_eq_ok.mp hrun
    obtain ⟨conv, hconv, hrun⟩ := Outcome.bind_eq_ok.mp hrun
    obtain ⟨means, -, hrun⟩ := Outcome.bind_eq_ok.mp hrun
    obtain ⟨stdDevs, hstdDevs, hrun⟩ := Outcome.bind_eq_ok.mp hrun
    obtain rfl := Outcome.ok.inj hrun
    obtain ⟨-, rfl⟩ := index32_eq_ok.mp hwidth
    obtain ⟨-, rfl⟩ := index32_eq_ok.mp hheight
    obtain ⟨columns, hcolumns, hconv⟩ := Outcome.bind_eq_ok.mp hconv
    obtain ⟨rows, hrows, hconv⟩ := Outcome.bind_eq_ok.mp hconv
    obtain ⟨-, rfl⟩ := index32_eq_ok.mp hcolumns
    obtain ⟨-, rfl⟩ := index32_eq_ok.mp hrows
    refine ⟨?_, ?_, ?_⟩
    · exact edge_ne_one (Nat.pos_of_ne_zero hX) (Nat.pos_of_ne_zero hY) h
    · by_contra hmany
      have hrefused : ¬ Dim3.Valid ⟨nX, nY⟩ := fun hvalid => hmany hvalid.2.2
      -- a launch with too many blocks is refused, and the buffer stays as it was
      rw [launchPatchStdDevReduction, launchReduction, launchSteps, if_neg hrefused] at hstdDevs
      have hunwritten := hfeatures.stdDev
      rw [← Outcome.ok.inj hstdDevs] at hunwritten
      cases hunwritten
    · by_cases hvalid : Dim3.Valid ⟨(nX * (p + f) + 15) / 16, (nY * (p + f) + 15) / 16⟩
      · have hgrid := hvalid.2.2
        dsimp only at hgrid
        refine ⟨by omega, elements_le_of_conv (Nat.mul_pos (by omega) (by omega))
          (Nat.mul_pos (by omega) (by omega)) hvalid hconv⟩
      · rw [launchStores, if_neg hvalid] at hconv
        have hunwritten := hfeatures.conv 0 (by omega) 0 (by omega)
        rw [← Outcome.ok.inj hconv] at hunwritten
        cases hunwritten
  · rintro (hX | hY | ⟨hone, hgrid, hrows, helements⟩) k hcolumn hrow
    · omega
    · omega
    · exact gaborComputed_of_bounds ⟨by omega, by omega, by omega, helements⟩ hgrid hrows k
        hcolumn hrow

/-- Two by one patches of two pixels by two, for a filter of edge three. -/
theorem gaborComputed_two :
    GaborComputed Scheduler.byPhase Real.sqrt (fun i => (i : ℝ)) (fun _ => 1) 2 1 2 3 :=
  (gaborComputed_iff _ _ _ _ 2 1 3 (by decide)).mpr (by decide)

theorem not_gaborComputed_one :
    ¬ GaborComputed Scheduler.byPhase Real.sqrt (fun _ => 1) (fun _ => 1) 1 1 1 3 :=
  fun h => edge_ne_one Nat.one_pos Nat.one_pos h rfl

end Gabor

end Alus.FeatureExtractionGabor
