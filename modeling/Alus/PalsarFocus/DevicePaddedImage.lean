import Alus.Lib.Kernel
import Alus.PalsarFocus.ImgOutput

/-!
# The padded image in device memory

`DevicePaddedImage` (`palsar-focus/src/device_padded_image.cu`) clears the padding of its image and
transposes it, padding included, through tiles in shared memory. None of its functions looks for a
launch that the device refused.
-/

namespace Alus.PalsarFocus

open Alus.Lib

section Memory

variable {F : Type}

/-- The image with other memory. -/
def DevicePaddedImage.withData (img : DevicePaddedImage F) (data : Nat → CufftComplex F) :
    DevicePaddedImage F :=
  { img with data }

variable (img : DevicePaddedImage F) (data : Nat → CufftComplex F)

@[simp] theorem DevicePaddedImage.withData_data : (img.withData data).data = data := rfl

@[simp] theorem DevicePaddedImage.withData_xSize : (img.withData data).xSize = img.xSize := rfl

@[simp] theorem DevicePaddedImage.withData_ySize : (img.withData data).ySize = img.ySize := rfl

@[simp] theorem DevicePaddedImage.withData_xStride :
    (img.withData data).xStride = img.xStride := rfl

@[simp] theorem DevicePaddedImage.withData_yStride :
    (img.withData data).yStride = img.yStride := rfl

@[simp] theorem DevicePaddedImage.withData_withData (data' : Nat → CufftComplex F) :
    (img.withData data).withData data' = img.withData data' := rfl

end Memory

variable {F : Type} [Field F]

/-! ## `ZeroFillPaddings` -/

/-- `ZeroFillPaddingsKernel`. -/
def zeroFillPaddingsKernel (xSize ySize xStride yStride x y : Nat) :
    Outcome (Option (Nat × CufftComplex F)) :=
  let idx := index32 (x + y * xStride)
  if (x ≥ xSize ∧ x < xStride) ∧ (y ≥ ySize ∧ y < yStride) then do
    return some (← idx, ⟨0, 0⟩)
  else return none

def zeroFillPaddings (s : Scheduler) (img : DevicePaddedImage F) :
    Outcome (DevicePaddedImage F) := do
  let grid : Dim3 := ⟨(← index32 (img.xStride + 15)) / 16, (← index32 (img.yStride + 15)) / 16⟩
  let data ← launchStores s grid ⟨16, 16⟩
    (zeroFillPaddingsKernel img.xSize img.ySize img.xStride img.yStride) img.data
  return img.withData data

/-- The padding holds zeros, and the image what it held before. -/
structure PaddingsZeroed (img result : DevicePaddedImage F) : Prop where
  padding : ∀ x < img.xStride, ∀ y < img.yStride, img.xSize ≤ x ∨ img.ySize ≤ y →
    result.data (y * img.xStride + x) = ⟨0, 0⟩
  image : ∀ x < img.xSize, ∀ y < img.ySize,
    result.data (y * img.xStride + x) = img.data (y * img.xStride + x)

/-- Whatever the image holds, its paddings are zeroed. -/
def ZeroFills (s : Scheduler) (img : DevicePaddedImage F) : Prop :=
  ∀ memory : Nat → CufftComplex F, ∃ result,
    zeroFillPaddings s (img.withData memory) = .ok result ∧
      PaddingsZeroed (img.withData memory) result

/-- There is no padding, or it is all in the corner, since there is no image. -/
structure PaddingInCorner (img : DevicePaddedImage F) : Prop where
  grid : img.xStride + 15 < 2147483648 ∧ img.yStride + 15 < 2147483648
  padding : (img.xSize = img.xStride ∧ img.ySize = img.yStride) ∨
    img.xStride = 0 ∨ img.yStride = 0 ∨ (img.xSize = 0 ∧ img.ySize = 0 ∧
      img.yStride ≤ 1048560 ∧ img.xStride * img.yStride ≤ 2147483648)

section ZeroFill

variable {s : Scheduler} {img result : DevicePaddedImage F}

/-- The grid of one thread an element, padding included. -/
def strideGrid (xStride yStride : Nat) : Dim3 := ⟨(xStride + 15) / 16, (yStride + 15) / 16⟩

theorem lt_strideGrid {xStride yStride x y : Nat} (hx : x < xStride) (hy : y < yStride) :
    x < (strideGrid xStride yStride).x * 16 ∧ y < (strideGrid xStride yStride).y * 16 := by
  simp only [strideGrid]
  omega

theorem zeroFillPaddings_eq_ok : zeroFillPaddings s img = .ok result ↔
    (img.xStride + 15 < 2147483648 ∧ img.yStride + 15 < 2147483648) ∧
      ∃ data, launchStores s (strideGrid img.xStride img.yStride) ⟨16, 16⟩
        (zeroFillPaddingsKernel img.xSize img.ySize img.xStride img.yStride) img.data = .ok data ∧
          result = img.withData data := by
  simp only [zeroFillPaddings, Outcome.bind_eq_ok, index32_eq_ok, Outcome.pure_eq,
    Outcome.ok.injEq]
  constructor
  · rintro ⟨_, ⟨hx, rfl⟩, _, ⟨hy, rfl⟩, data, hrun, rfl⟩
    exact ⟨⟨hx, hy⟩, data, hrun, rfl⟩
  · rintro ⟨⟨hx, hy⟩, data, hrun, rfl⟩
    exact ⟨_, ⟨hx, rfl⟩, _, ⟨hy, rfl⟩, data, hrun, rfl⟩

/-- A thread in the corner stores a zero in its own place; the others store nothing. -/
theorem zeroFillPaddingsKernel_eq_store {xSize ySize xStride yStride x y k : Nat}
    {a : CufftComplex F}
    (h : zeroFillPaddingsKernel xSize ySize xStride yStride x y = .ok (some (k, a))) :
    (xSize ≤ x ∧ x < xStride) ∧ (ySize ≤ y ∧ y < yStride) ∧ k = y * xStride + x ∧
      a = ⟨0, 0⟩ := by
  unfold zeroFillPaddingsKernel at h
  split at h
  · next hcorner =>
    simp only [Outcome.bind_eq_ok, index32_eq_ok, Outcome.pure_eq, Outcome.ok.injEq,
      Option.some.injEq, Prod.mk.injEq] at h
    obtain ⟨idx, ⟨-, rfl⟩, rfl, rfl⟩ := h
    exact ⟨hcorner.1, hcorner.2, Nat.add_comm _ _, rfl⟩
  · cases h

/-- What is outside of the corner keeps what it held. -/
theorem zeroFillPaddings_kept {memory data : Nat → CufftComplex F}
    (hrun : launchStores s (strideGrid img.xStride img.yStride) ⟨16, 16⟩
      (zeroFillPaddingsKernel img.xSize img.ySize img.xStride img.yStride) memory = .ok data)
    {x y : Nat} (hx : x < img.xStride) (hout : x < img.xSize ∨ y < img.ySize) :
    data (y * img.xStride + x) = memory (y * img.xStride + x) := by
  refine launchStores_kept hrun fun x' _ y' _ a hstore => ?_
  obtain ⟨hx', hy', hk, -⟩ := zeroFillPaddingsKernel_eq_store hstore
  obtain ⟨rfl, rfl⟩ := row_index_inj hx hx'.2 hk
  omega

theorem paddingInCorner_of_zeroFills (h : ZeroFills s img) : PaddingInCorner img := by
  obtain ⟨result, hout, hzeroed⟩ := h fun _ => ⟨1, 0⟩
  obtain ⟨hgrid, data, hrun, rfl⟩ := zeroFillPaddings_eq_ok.mp hout
  simp only [DevicePaddedImage.withData_withData, DevicePaddedImage.withData_xStride,
    DevicePaddedImage.withData_yStride, DevicePaddedImage.withData_xSize,
    DevicePaddedImage.withData_ySize] at hgrid hrun hzeroed
  have hone : (⟨1, 0⟩ : CufftComplex F) ≠ ⟨0, 0⟩ := fun heq =>
    one_ne_zero (congrArg CufftComplex.x heq)
  have hxle := img.xSize_le
  have hyle := img.ySize_le
  -- a place outside of the corner that belongs to the padding is not cleared
  have hstrip : ∀ x < img.xStride, ∀ y < img.yStride, img.xSize ≤ x ∨ img.ySize ≤ y →
      ¬ (x < img.xSize ∨ y < img.ySize) := by
    intro x hx y hy hpadding hout
    have hkept := zeroFillPaddings_kept hrun hx hout
    rw [DevicePaddedImage.withData_data] at hkept
    exact hone (hkept.symm.trans (hzeroed.padding x hx y hy hpadding))
  refine ⟨hgrid, ?_⟩
  by_contra hnot
  push Not at hnot
  obtain ⟨hpadded, hx0, hy0, hcorner⟩ := hnot
  have hxright := hstrip (img.xStride - 1) (by omega) 0 (by omega)
  have hybottom := hstrip 0 (by omega) (img.yStride - 1) (by omega)
  have hnone : img.xSize = 0 ∧ img.ySize = 0 := by omega
  -- without an image everything is in the corner, so every thread has to run
  have hvalid : (strideGrid img.xStride img.yStride).Valid := by
    by_contra hinvalid
    rw [launchStores, if_neg hinvalid] at hrun
    have hzero := hzeroed.padding 0 (Nat.pos_of_ne_zero hx0) 0 (Nat.pos_of_ne_zero hy0)
      (.inl hnone.1.le)
    rw [DevicePaddedImage.withData_data, ← Outcome.ok.inj hrun] at hzero
    exact hone hzero
  have hlines : img.yStride ≤ 1048560 := by
    simp only [Dim3.Valid, strideGrid] at hvalid
    omega
  have hlast : img.xStride - 1 + (img.yStride - 1) * img.xStride < 2147483648 := by
    obtain ⟨hxg, hyg⟩ := lt_strideGrid (x := img.xStride - 1) (y := img.yStride - 1)
      (Nat.sub_lt (Nat.pos_of_ne_zero hx0) Nat.one_pos)
      (Nat.sub_lt (Nat.pos_of_ne_zero hy0) Nat.one_pos)
    obtain ⟨w, hw⟩ := ok_of_launchStores hrun hvalid hxg hyg
    rw [zeroFillPaddingsKernel, if_pos (by omega)] at hw
    simp only [Outcome.bind_eq_ok, index32_eq_ok] at hw
    obtain ⟨_, ⟨hlt, -⟩, -⟩ := hw
    exact hlt
  refine absurd (hcorner hnone.1 hnone.2 hlines) (not_lt.mpr ?_)
  obtain ⟨lines, hlinesEq⟩ : ∃ lines, img.yStride = lines + 1 := ⟨img.yStride - 1, by omega⟩
  rw [hlinesEq, Nat.add_sub_cancel] at hlast
  rw [hlinesEq, Nat.mul_comm, Nat.add_one_mul]
  omega

theorem zeroFills_of_paddingInCorner (h : PaddingInCorner img) : ZeroFills s img := by
  intro memory
  have hxle := img.xSize_le
  have hyle := img.ySize_le
  have hok : ∀ x < (strideGrid img.xStride img.yStride).x * 16,
      ∀ y < (strideGrid img.xStride img.yStride).y * 16, ∃ w,
      zeroFillPaddingsKernel (F := F) img.xSize img.ySize img.xStride img.yStride x y = .ok w := by
    intro x _ y _
    by_cases hcorner : (x ≥ img.xSize ∧ x < img.xStride) ∧ (y ≥ img.ySize ∧ y < img.yStride)
    · have hsize : img.xStride * img.yStride ≤ 2147483648 := by
        rcases h.padding with h | h | h | h <;> omega
      have hlt := row_index_lt hcorner.1.2 hcorner.2.2
      exact ⟨_, by rw [zeroFillPaddingsKernel, if_pos hcorner, index32_of_lt (by omega)]; rfl⟩
    · exact ⟨none, by rw [zeroFillPaddingsKernel, if_neg hcorner]; rfl⟩
  obtain ⟨data, hrun⟩ :=
    exists_launchStores s (strideGrid img.xStride img.yStride) ⟨16, 16⟩ hok memory
  refine ⟨img.withData data, zeroFillPaddings_eq_ok.mpr ⟨h.grid, data, hrun, rfl⟩, ?_, ?_⟩
  · intro x hx y hy hpadding
    simp only [DevicePaddedImage.withData_xStride, DevicePaddedImage.withData_yStride,
      DevicePaddedImage.withData_xSize, DevicePaddedImage.withData_ySize] at hx hy hpadding
    -- there is padding, so the corner has to be the whole area
    obtain ⟨hx0, hy0, hlines, hsize⟩ : img.xSize = 0 ∧ img.ySize = 0 ∧
        img.yStride ≤ 1048560 ∧ img.xStride * img.yStride ≤ 2147483648 := by
      rcases h.padding with h | h | h | h <;> omega
    have hvalid : (strideGrid img.xStride img.yStride).Valid := by
      have hgrid := h.grid
      simp only [Dim3.Valid, strideGrid]
      omega
    obtain ⟨hxg, hyg⟩ := lt_strideGrid hx hy
    have hlt := row_index_lt hx hy
    rw [DevicePaddedImage.withData_xStride]
    refine launchStores_stored hrun hvalid hxg hyg ?_ fun x' y' b hb =>
      (zeroFillPaddingsKernel_eq_store hb).2.2.2
    rw [zeroFillPaddingsKernel, if_pos (by omega), index32_of_lt (by omega), Nat.add_comm x]
    rfl
  · intro x hx y hy
    simp only [DevicePaddedImage.withData_xSize, DevicePaddedImage.withData_ySize] at hx hy
    exact zeroFillPaddings_kept hrun (by omega) (.inl hx)

/-- **When the paddings are zeroed.** -/
theorem zeroFills_iff : ZeroFills s img ↔ PaddingInCorner img :=
  ⟨paddingInCorner_of_zeroFills, zeroFills_of_paddingInCorner⟩

end ZeroFill

/-- One sample with a padding of one to the right and below. -/
def paddedSample : DevicePaddedImage ℚ := ⟨1, 1, 2, 2, one_le_two, one_le_two, fun _ => ⟨0, 0⟩⟩

/-- The strips right of the sample and below it are not cleared. -/
theorem not_zeroFills_paddedSample : ¬ ZeroFills .byPhase paddedSample := by
  intro h
  have hpadding := (paddingInCorner_of_zeroFills h).padding
  exact absurd hpadding (by decide)

/-! ## `Transpose` -/

section Transpose

variable {F : Type}

/-- A cell of a tile in shared memory, of which each block has its own, or of the output. -/
inductive TransposeCell where
  | tile (blockX blockY row column : Nat)
  | odata (index : Nat)
  deriving DecidableEq, Repr

/-- `TransposeKernel`: the tile is filled before the barrier, and written out after it. -/
def transposeKernel (idata : Nat → CufftComplex F) (width height : Nat) (t : ThreadStep)
    (m : TransposeCell → CufftComplex F) : Outcome (Option (TransposeCell × CufftComplex F)) :=
  if t.phase = 0 then
    let xIndex := t.blockX * 16 + t.threadX
    let yIndex := t.blockY * 16 + t.threadY
    if xIndex < width ∧ yIndex < height then do
      let indexIn ← index32 (yIndex * width + xIndex)
      return some (.tile t.blockX t.blockY t.threadY t.threadX, idata indexIn)
    else return none
  else
    let xIndex := t.blockY * 16 + t.threadX
    let yIndex := t.blockX * 16 + t.threadY
    if xIndex < height ∧ yIndex < width then do
      let indexOut ← index32 (yIndex * height + xIndex)
      return some (.odata indexOut, m (.tile t.blockX t.blockY t.threadX t.threadY))
    else return none

/-- The launch of `TransposeKernel`, on memory that holds `fresh`. -/
def launchTranspose (s : Scheduler) (idata : Nat → CufftComplex F) (width height : Nat)
    (fresh : TransposeCell → CufftComplex F) : Outcome (Nat → CufftComplex F) := do
  let grid : Dim3 := ⟨((← index32 (width + 16)) - 1) / 16, ((← index32 (height + 16)) - 1) / 16⟩
  let m ← launchSteps s grid ⟨16, 16⟩ 2 (transposeKernel idata width height) fresh
  return fun k => m (.odata k)

/-- The sizes and strides exchanged, over other memory. -/
def DevicePaddedImage.swapped (img : DevicePaddedImage F) (data : Nat → CufftComplex F) :
    DevicePaddedImage F :=
  ⟨img.ySize, img.xSize, img.yStride, img.xStride, img.ySize_le, img.xSize_le, data⟩

/-- `Transpose`, into newly allocated memory. -/
def transpose (s : Scheduler) (img : DevicePaddedImage F)
    (fresh : TransposeCell → CufftComplex F) : Outcome (DevicePaddedImage F) := do
  let transposed ← launchTranspose s img.data img.xStride img.yStride fresh
  return img.swapped transposed

/-- `TotalByteSize`. -/
def DevicePaddedImage.totalByteSize (img : DevicePaddedImage F) : Nat :=
  img.xStride * img.yStride * 8

structure CudaWorkspace (F : Type) where
  byteSize : Nat
  data : Nat → CufftComplex F

/-- The memory of a launch that writes to the workspace. -/
def CudaWorkspace.launchMemory (workspace : CudaWorkspace F)
    (fresh : TransposeCell → CufftComplex F) : TransposeCell → CufftComplex F
  | .tile blockX blockY row column => fresh (.tile blockX blockY row column)
  | .odata k => workspace.data k

/-- `Transpose`, into a workspace, which gets the memory that the image had. -/
def transposeInto (s : Scheduler) (img : DevicePaddedImage F) (workspace : CudaWorkspace F)
    (fresh : TransposeCell → CufftComplex F) :
    Outcome (DevicePaddedImage F × CudaWorkspace F) := do
  -- `VerifyExtMemorySize`
  Outcome.require (img.totalByteSize ≤ workspace.byteSize)
  let transposed ←
    launchTranspose s img.data img.xStride img.yStride (workspace.launchMemory fresh)
  return (img.swapped transposed, ⟨(img.swapped transposed).totalByteSize, img.data⟩)

/-- The images have the same sizes, and the same elements, padding included. -/
structure SameImage (img img' : DevicePaddedImage F) : Prop where
  xSize : img'.xSize = img.xSize
  ySize : img'.ySize = img.ySize
  xStride : img'.xStride = img.xStride
  yStride : img'.yStride = img.yStride
  data : ∀ x < img.xStride, ∀ y < img.yStride,
    img'.data (y * img.xStride + x) = img.data (y * img.xStride + x)

/-- `result` is the transposed matrix of `img`. -/
structure Transposed (img result : DevicePaddedImage F) : Prop where
  xSize : result.xSize = img.ySize
  ySize : result.ySize = img.xSize
  xStride : result.xStride = img.yStride
  yStride : result.yStride = img.xStride
  data : ∀ x < result.xStride, ∀ y < result.yStride,
    result.data (y * result.xStride + x) = img.data (x * img.xStride + y)

/-- Whatever the image and the memory hold, `Transpose` gives the transposed matrix, twice the
image again, and the same through every workspace that is large enough. -/
structure TransposesMatrix (s : Scheduler) (img : DevicePaddedImage F) : Prop where
  transposed : ∀ memory fresh, ∃ result, transpose s (img.withData memory) fresh = .ok result ∧
    Transposed (img.withData memory) result
  twice : ∀ memory fresh fresh', ∃ result result',
    transpose s (img.withData memory) fresh = .ok result ∧ transpose s result fresh' = .ok result' ∧
      SameImage (img.withData memory) result'
  workspace : ∀ memory fresh fresh' workspace, img.totalByteSize ≤ workspace.byteSize →
    ∃ result result' workspace', transpose s (img.withData memory) fresh = .ok result ∧
      transposeInto s (img.withData memory) workspace fresh' = .ok (result', workspace') ∧
        SameImage result result' ∧ workspace' = ⟨img.totalByteSize, memory⟩

/-- The strides fit the grids of the device and the elements an index, or there is no element. -/
structure TransposeInRange (img : DevicePaddedImage F) : Prop where
  blocks : img.xStride + 16 < 2147483648 ∧ img.yStride + 16 < 2147483648
  elements : img.xStride = 0 ∨ img.yStride = 0 ∨
    (img.xStride ≤ 1048560 ∧ img.yStride ≤ 1048560 ∧ img.xStride * img.yStride ≤ 2147483648)

/-! ### The two phases -/

section Kernel

variable {idata : Nat → CufftComplex F} {width height : Nat}

/-- The thread has an element to load, or to write. -/
def TransposeActive (width height : Nat) (t : ThreadStep) : Prop :=
  if t.phase = 0 then t.blockX * 16 + t.threadX < width ∧ t.blockY * 16 + t.threadY < height
  else t.blockY * 16 + t.threadX < height ∧ t.blockX * 16 + t.threadY < width

instance (width height : Nat) : DecidablePred (TransposeActive width height) := fun t => by
  unfold TransposeActive
  infer_instance

def transposeAddr (height : Nat) (t : ThreadStep) : TransposeCell :=
  if t.phase = 0 then .tile t.blockX t.blockY t.threadY t.threadX
  else .odata ((t.blockX * 16 + t.threadY) * height + (t.blockY * 16 + t.threadX))

def transposeVal (idata : Nat → CufftComplex F) (width : Nat) (t : ThreadStep)
    (m : TransposeCell → CufftComplex F) : CufftComplex F :=
  if t.phase = 0 then idata ((t.blockY * 16 + t.threadY) * width + (t.blockX * 16 + t.threadX))
  else m (.tile t.blockX t.blockY t.threadX t.threadY)

variable (idata) in
theorem transposeKernel_eq (hsize : width * height ≤ 2147483648) (t : ThreadStep)
    (m : TransposeCell → CufftComplex F) :
    transposeKernel idata width height t m = .ok (if TransposeActive width height t then
      some (transposeAddr height t, transposeVal idata width t m) else none) := by
  simp only [transposeKernel, TransposeActive, transposeAddr, transposeVal]
  by_cases hphase : t.phase = 0
  · simp only [if_pos hphase]
    split
    · next hin =>
      have hlt := row_index_lt hin.1 hin.2
      rw [index32_of_lt (by omega)]
      rfl
    · rfl
  · simp only [if_neg hphase]
    split
    · next hin =>
      have hlt := row_index_lt hin.1 hin.2
      rw [Nat.mul_comm height] at hlt
      rw [index32_of_lt (by omega)]
      rfl
    · rfl

/-- Steps between which there is no barrier have their own cells, and do not read each other's. -/
theorem transpose_unread {grid : Dim3} {t t' : ThreadStep}
    (ht : t ∈ threadSteps grid ⟨16, 16⟩ 2) (ht' : t' ∈ threadSteps grid ⟨16, 16⟩ 2) (hne : t ≠ t')
    (hphase : t.blockX = t'.blockX ∧ t.blockY = t'.blockY → t.phase = t'.phase) :
    Unread (TransposeActive width height) (transposeAddr height) (transposeVal idata width)
      t t' := by
  intro hact hact'
  obtain ⟨hp, -, htx, hty⟩ := mem_threadSteps.mp ht
  obtain ⟨hp', -, htx', hty'⟩ := mem_threadSteps.mp ht'
  obtain ⟨phase, blockX, blockY, threadX, threadY⟩ := t
  obtain ⟨phase', blockX', blockY', threadX', threadY'⟩ := t'
  simp only [ne_eq, ThreadStep.mk.injEq] at hne hp hp' htx hty htx' hty'
  simp only [TransposeActive] at hact hact'
  simp only [transposeAddr, transposeVal, ne_eq]
  by_cases h0 : phase = 0
  -- a load reads nothing that is stored
  · simp only [if_pos h0]
    refine ⟨?_, fun _ _ => trivial⟩
    by_cases h0' : phase' = 0
    -- two loads, to different places of a tile or to different tiles
    · simp only [if_pos h0', TransposeCell.tile.injEq]
      rintro ⟨rfl, rfl, rfl, rfl⟩
      exact hne ⟨by omega, rfl, rfl, rfl, rfl⟩
    · simp only [if_neg h0']
      nofun
  · simp only [if_neg h0] at hact ⊢
    by_cases h0' : phase' = 0
    -- a load of another block
    · simp only [if_pos h0']
      refine ⟨by nofun, fun m a => Function.update_of_ne ?_ _ _⟩
      rw [ne_eq, TransposeCell.tile.injEq]
      rintro ⟨rfl, rfl, -⟩
      exact h0 ((hphase ⟨rfl, rfl⟩).trans h0')
    -- two stores, which read tiles only
    · simp only [if_neg h0'] at hact' ⊢
      refine ⟨?_, fun m a => Function.update_of_ne (by nofun) _ _⟩
      rw [TransposeCell.odata.injEq]
      intro hindex
      obtain ⟨hx, hy⟩ := row_index_inj hact.1 hact'.1 hindex
      exact hne ⟨by omega, by omega, by omega, by omega, by omega⟩

/-- The grid of one thread an element, in tiles. -/
def transposeGrid (width height : Nat) : Dim3 := ⟨(width + 16 - 1) / 16, (height + 16 - 1) / 16⟩

theorem launchTranspose_eq_ok {s : Scheduler} {fresh : TransposeCell → CufftComplex F}
    {data : Nat → CufftComplex F} : launchTranspose s idata width height fresh = .ok data ↔
      (width + 16 < 2147483648 ∧ height + 16 < 2147483648) ∧
        ∃ m, launchSteps s (transposeGrid width height) ⟨16, 16⟩ 2
          (transposeKernel idata width height) fresh = .ok m ∧ data = fun k => m (.odata k) := by
  simp only [launchTranspose, Outcome.bind_eq_ok, index32_eq_ok, Outcome.pure_eq,
    Outcome.ok.injEq]
  constructor
  · rintro ⟨_, ⟨hx, rfl⟩, _, ⟨hy, rfl⟩, m, hrun, rfl⟩
    exact ⟨⟨hx, hy⟩, m, hrun, rfl⟩
  · rintro ⟨⟨hx, hy⟩, m, hrun, rfl⟩
    exact ⟨_, ⟨hx, rfl⟩, _, ⟨hy, rfl⟩, m, hrun, rfl⟩

/-- The first phase loads the element of a tile's cell. -/
theorem tile_after_load (fresh : TransposeCell → CufftComplex F) {blockX blockY row column : Nat}
    (hx : blockX * 16 + column < width) (hy : blockY * 16 + row < height) (hrow : row < 16)
    (hcolumn : column < 16) :
    (threadSteps (transposeGrid width height) ⟨16, 16⟩ 1).foldl
        (storeStep (TransposeActive width height) (transposeAddr height) (transposeVal idata width))
        fresh (.tile blockX blockY row column) =
      idata ((blockY * 16 + row) * width + (blockX * 16 + column)) := by
  let t : ThreadStep := ⟨0, blockX, blockY, column, row⟩
  have ht : t ∈ threadSteps (transposeGrid width height) ⟨16, 16⟩ 1 := by
    refine mem_threadSteps.mpr ⟨Nat.one_pos, ?_, hcolumn, hrow⟩
    simp only [transposeGrid, t]
    omega
  have hact : TransposeActive width height t := by
    simp only [TransposeActive, t, if_pos]
    exact ⟨hx, hy⟩
  refine (foldl_storeStep (nodup_threadSteps _ _ 1) (fun u hu u' hu' hne => ?_) fresh).1 t ht hact
  have hu0 := (mem_threadSteps.mp hu).1
  have hu0' := (mem_threadSteps.mp hu').1
  exact transpose_unread (mem_threadSteps.mpr ⟨by omega, (mem_threadSteps.mp hu).2⟩)
    (mem_threadSteps.mpr ⟨by omega, (mem_threadSteps.mp hu').2⟩) hne fun _ => by omega

/-- After the two phases, each place of the output holds the element of the exchanged place. -/
theorem odata_after_phases (fresh : TransposeCell → CufftComplex F) {x y : Nat} (hx : x < height)
    (hy : y < width) :
    (threadSteps (transposeGrid width height) ⟨16, 16⟩ 2).foldl
        (storeStep (TransposeActive width height) (transposeAddr height) (transposeVal idata width))
        fresh (.odata (y * height + x)) = idata (x * width + y) := by
  -- the thread of the second phase that writes this place
  let t : ThreadStep := ⟨1, y / 16, x / 16, x % 16, y % 16⟩
  have ht : t ∈ phaseSteps (transposeGrid width height) ⟨16, 16⟩ 1 := by
    refine mem_phaseSteps.mpr ⟨rfl, ?_⟩
    simp only [transposeGrid, t]
    omega
  have hact : TransposeActive width height t := by
    simp only [TransposeActive, t, one_ne_zero, if_false]
    omega
  have haddr : transposeAddr height t = .odata (y * height + x) := by
    simp only [transposeAddr, t, one_ne_zero, if_false]
    rw [show y / 16 * 16 + y % 16 = y by omega, show x / 16 * 16 + x % 16 = x by omega]
  rw [threadSteps_succ, List.foldl_append, ← haddr]
  rw [(foldl_storeStep (nodup_phaseSteps _ _ 1) (fun u hu u' hu' hne => ?_) _).1 t ht hact]
  · simp only [transposeVal, t, one_ne_zero, if_false]
    rw [tile_after_load fresh (by omega) (by omega) (by omega) (by omega),
      show y / 16 * 16 + y % 16 = y by omega, show x / 16 * 16 + x % 16 = x by omega]
  · obtain ⟨hu1, hu⟩ := mem_phaseSteps.mp hu
    obtain ⟨hu1', hu'⟩ := mem_phaseSteps.mp hu'
    exact transpose_unread (mem_threadSteps.mpr ⟨by omega, hu⟩)
      (mem_threadSteps.mpr ⟨by omega, hu'⟩) hne fun _ => by omega

theorem exists_launchTranspose (s : Scheduler) (fresh : TransposeCell → CufftComplex F)
    (hvalid : (transposeGrid width height).Valid)
    (hblocks : width + 16 < 2147483648 ∧ height + 16 < 2147483648)
    (hsize : width * height ≤ 2147483648) :
    ∃ data, launchTranspose s idata width height fresh = .ok data ∧
      ∀ x < height, ∀ y < width, data (y * height + x) = idata (x * width + y) := by
  have hrun := launchSteps_eq_ok s ⟨16, 16⟩ 2 hvalid
    (fun t _ m => transposeKernel_eq idata hsize t m)
    (fun t ht t' ht' hne hphase => transpose_unread ht ht' hne hphase) fresh
  exact ⟨_, launchTranspose_eq_ok.mpr ⟨hblocks, _, hrun, rfl⟩,
    fun x hx y hy => odata_after_phases fresh hx hy⟩

end Kernel

/-! ### Images -/

variable {s : Scheduler} {img : DevicePaddedImage F}

theorem TransposeInRange.withData (h : TransposeInRange img) (data : Nat → CufftComplex F) :
    TransposeInRange (img.withData data) :=
  ⟨h.blocks, h.elements⟩

theorem TransposeInRange.swapped (h : TransposeInRange img) (data : Nat → CufftComplex F) :
    TransposeInRange (img.swapped data) := by
  refine ⟨h.blocks.symm, ?_⟩
  simp only [DevicePaddedImage.swapped]
  rw [Nat.mul_comm]
  have helements := h.elements
  omega

/-- An image without elements is not launched, and has nothing to transpose. -/
theorem TransposeInRange.exists_launch (h : TransposeInRange img)
    (fresh : TransposeCell → CufftComplex F) :
    ∃ data, launchTranspose s img.data img.xStride img.yStride fresh = .ok data ∧
      ∀ x < img.yStride, ∀ y < img.xStride,
        data (y * img.yStride + x) = img.data (x * img.xStride + y) := by
  have hblocks := h.blocks
  by_cases hempty : img.xStride = 0 ∨ img.yStride = 0
  -- the grid is empty, so the launch is refused and the memory stays as it was
  · have hinvalid : ¬ (transposeGrid img.xStride img.yStride).Valid := by
      simp only [Dim3.Valid, transposeGrid]
      omega
    refine ⟨_, launchTranspose_eq_ok.mpr ⟨hblocks, fresh, ?_, rfl⟩, fun x hx y hy => ?_⟩
    · rw [launchSteps, if_neg hinvalid]
    · omega
  · have helements := h.elements
    have hvalid : (transposeGrid img.xStride img.yStride).Valid := by
      simp only [Dim3.Valid, transposeGrid]
      omega
    exact exists_launchTranspose s fresh hvalid hblocks (by omega)

theorem TransposeInRange.exists_transpose (h : TransposeInRange img)
    (fresh : TransposeCell → CufftComplex F) :
    ∃ data, transpose s img fresh = .ok (img.swapped data) ∧ Transposed img (img.swapped data) := by
  obtain ⟨data, hrun, hdata⟩ := h.exists_launch (s := s) fresh
  refine ⟨data, ?_, rfl, rfl, rfl, rfl, hdata⟩
  rw [transpose, hrun]
  rfl

theorem Transposed.sameImage_twice {result result' : DevicePaddedImage F}
    (h : Transposed img result) (h' : Transposed result result') : SameImage img result' := by
  refine ⟨h'.xSize.trans h.ySize, h'.ySize.trans h.xSize, h'.xStride.trans h.yStride,
    h'.yStride.trans h.xStride, fun x hx y hy => ?_⟩
  -- the places of the second image are those of the first, exchanged twice
  have hback := h'.data x (by rwa [h'.xStride, h.yStride]) y (by rwa [h'.yStride, h.xStride])
  have hforth := h.data y (by rwa [h.xStride]) x (by rwa [h.yStride])
  rw [h'.xStride, h.yStride] at hback
  exact hback.trans hforth

theorem Transposed.sameImage {result result' : DevicePaddedImage F} (h : Transposed img result)
    (h' : Transposed img result') : SameImage result result' := by
  refine ⟨h'.xSize.trans h.xSize.symm, h'.ySize.trans h.ySize.symm,
    h'.xStride.trans h.xStride.symm, h'.yStride.trans h.yStride.symm, fun x hx y hy => ?_⟩
  have hsame := h'.data x (by rwa [h'.xStride, ← h.xStride]) y (by rwa [h'.yStride, ← h.yStride])
  rw [h'.xStride, ← h.xStride] at hsame
  rw [hsame, h.data x hx y hy]

theorem transposesMatrix_of_inRange (h : TransposeInRange img) : TransposesMatrix s img := by
  refine ⟨fun memory fresh => ?_, fun memory fresh fresh' => ?_,
    fun memory fresh fresh' workspace hsize => ?_⟩
  · obtain ⟨data, hrun, htransposed⟩ := (h.withData memory).exists_transpose (s := s) fresh
    exact ⟨_, hrun, htransposed⟩
  · obtain ⟨data, hrun, htransposed⟩ := (h.withData memory).exists_transpose (s := s) fresh
    obtain ⟨data', hrun', htransposed'⟩ :=
      ((h.withData memory).swapped data).exists_transpose (s := s) fresh'
    exact ⟨_, _, hrun, hrun', htransposed.sameImage_twice htransposed'⟩
  · obtain ⟨data, hrun, htransposed⟩ := (h.withData memory).exists_transpose (s := s) fresh
    obtain ⟨data', hrun', hdata'⟩ := (h.withData memory).exists_launch (s := s)
      (workspace.launchMemory fresh')
    have htransposed' : Transposed (img.withData memory) ((img.withData memory).swapped data') :=
      ⟨rfl, rfl, rfl, rfl, hdata'⟩
    refine ⟨_, (img.withData memory).swapped data', _, hrun, ?_, htransposed.sameImage htransposed',
      rfl⟩
    -- the workspace takes the image, and has its size afterwards
    have hroom : (img.withData memory).totalByteSize ≤ workspace.byteSize := hsize
    have hsame : ((img.withData memory).swapped data').totalByteSize = img.totalByteSize := by
      rw [DevicePaddedImage.totalByteSize, DevicePaddedImage.totalByteSize,
        Nat.mul_comm img.xStride]
      rfl
    rw [transposeInto, Outcome.require_of hroom, Outcome.ok_bind, hrun', Outcome.ok_bind, hsame]
    rfl

end Transpose

section TransposeRange

variable {s : Scheduler} {img : DevicePaddedImage F}

/-- A launch that puts a zero into an output of ones was not refused, and the last element of its
input has an index. -/
theorem range_of_launchTranspose {idata data : Nat → CufftComplex F} {width height : Nat}
    (hx : 0 < width) (hy : 0 < height)
    (hrun : launchTranspose s idata width height (fun _ => ⟨1, 0⟩) = .ok data)
    (hdata : data 0 = ⟨0, 0⟩) : height ≤ 1048560 ∧ width * height ≤ 2147483648 := by
  obtain ⟨hblocks, m, hlaunch, rfl⟩ := launchTranspose_eq_ok.mp hrun
  have hvalid : (transposeGrid width height).Valid := by
    by_contra hinvalid
    rw [launchSteps, if_neg hinvalid] at hlaunch
    rw [← Outcome.ok.inj hlaunch] at hdata
    exact one_ne_zero (congrArg CufftComplex.x hdata)
  refine ⟨by simp only [Dim3.Valid, transposeGrid] at hvalid; omega, ?_⟩
  -- the thread that loads the last element of the input
  let t : ThreadStep :=
    ⟨0, (width - 1) / 16, (height - 1) / 16, (width - 1) % 16, (height - 1) % 16⟩
  have ht : t ∈ threadSteps (transposeGrid width height) ⟨16, 16⟩ 2 := by
    refine mem_threadSteps.mpr ⟨Nat.two_pos, ?_⟩
    simp only [transposeGrid, t]
    omega
  obtain ⟨m', w, hw⟩ := ok_of_launchSteps hlaunch hvalid ht
  rw [transposeKernel, if_pos rfl] at hw
  simp only [t, Nat.div_add_mod'] at hw
  rw [if_pos (by omega)] at hw
  obtain ⟨index, hindex, -⟩ := Outcome.bind_eq_ok.mp hw
  have hlast := (index32_eq_ok.mp hindex).1
  obtain ⟨lines, rfl⟩ : ∃ lines, height = lines + 1 := ⟨height - 1, by omega⟩
  rw [Nat.add_sub_cancel] at hlast
  rw [Nat.mul_comm, Nat.add_one_mul]
  omega

omit [Field F] in
theorem transpose_eq_ok {fresh : TransposeCell → CufftComplex F} {result : DevicePaddedImage F} :
    transpose s img fresh = .ok result ↔ ∃ data,
      launchTranspose s img.data img.xStride img.yStride fresh = .ok data ∧
        result = img.swapped data := by
  simp only [transpose, Outcome.bind_eq_ok, Outcome.pure_eq, Outcome.ok.injEq]
  exact exists_congr fun data => and_congr_right fun _ => eq_comm

theorem inRange_of_transposesMatrix (h : TransposesMatrix s img) : TransposeInRange img := by
  -- zeros in the image, ones in the memory that is allocated
  obtain ⟨result, result', hrun, hrun', hsame⟩ :=
    h.twice (fun _ => ⟨0, 0⟩) (fun _ => ⟨1, 0⟩) fun _ => ⟨1, 0⟩
  obtain ⟨_, hrun₁, htransposed⟩ := h.transposed (fun _ => ⟨0, 0⟩) fun _ => ⟨1, 0⟩
  rw [hrun, Outcome.ok.injEq] at hrun₁
  subst hrun₁
  obtain ⟨data, hlaunch, rfl⟩ := transpose_eq_ok.mp hrun
  obtain ⟨data', hlaunch', rfl⟩ := transpose_eq_ok.mp hrun'
  refine ⟨(launchTranspose_eq_ok.mp hlaunch).1, ?_⟩
  by_cases hempty : img.xStride = 0 ∨ img.yStride = 0
  · omega
  · have hx : 0 < img.xStride := by omega
    have hy : 0 < img.yStride := by omega
    have hfirst : data 0 = ⟨0, 0⟩ := by
      have hzero := htransposed.data 0 hy 0 hx
      rwa [Nat.zero_mul, Nat.zero_mul] at hzero
    have hagain : data' 0 = ⟨0, 0⟩ := by
      have hzero := hsame.data 0 hx 0 hy
      rwa [Nat.zero_mul] at hzero
    obtain ⟨hyle, hsize⟩ := range_of_launchTranspose hx hy hlaunch hfirst
    obtain ⟨hxle, -⟩ := range_of_launchTranspose hy hx hlaunch' hagain
    exact .inr (.inr ⟨hxle, hyle, hsize⟩)

/-- **When transposing works.** -/
theorem transposesMatrix_iff : TransposesMatrix s img ↔ TransposeInRange img :=
  ⟨inRange_of_transposesMatrix, transposesMatrix_of_inRange⟩

end TransposeRange

/-- An image of one column with more rows than the device takes blocks for. -/
def tallColumn : DevicePaddedImage ℚ :=
  ⟨1, 1048561, 1, 1048561, Nat.one_pos, le_refl 1048561, fun _ => ⟨0, 0⟩⟩

theorem not_transposesMatrix_tallColumn : ¬ TransposesMatrix .byPhase tallColumn := by
  intro h
  exact absurd (inRange_of_transposesMatrix h).elements (by decide)

end Alus.PalsarFocus
