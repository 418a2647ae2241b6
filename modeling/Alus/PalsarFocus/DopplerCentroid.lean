import Alus.PalsarFocus.DcBiasMean
import Alus.PalsarFocus.DevicePaddedImage
import Alus.PalsarFocus.RangeDoppler

/-!
# The Doppler centroid

`CalculateDopplerCentroid` (`palsar-focus/src/doppler_centroid.cu`) adds up the phase differences
between the azimuth lines: each thread has one, a block reduces its differences in shared memory,
and a second launch of one block reduces the results of the blocks. The centroid is computed from
the angle of the sum.

Arithmetic is that of a field, so nothing is rounded. A result that no block has written is `none`,
and so is what is computed from it.
-/

namespace Alus.PalsarFocus

open Alus.Lib

/-! ## Complex numbers -/

section Complex

variable {F : Type} [Field F]

/-- `cuConjf`. -/
def cuConjf (z : CufftComplex F) : CufftComplex F := ⟨z.x, -z.y⟩

/-- `cuCaddf`. -/
def cuCaddf (a b : CufftComplex F) : CufftComplex F := ⟨a.x + b.x, a.y + b.y⟩

instance : Add (CufftComplex F) := ⟨cuCaddf⟩

instance : Zero (CufftComplex F) := ⟨⟨0, 0⟩⟩

instance : AddCommMonoid (CufftComplex F) where
  nsmul := nsmulRec
  add_assoc a b c := congrArg₂ CufftComplex.mk (add_assoc a.x b.x c.x) (add_assoc a.y b.y c.y)
  zero_add a := congrArg₂ CufftComplex.mk (zero_add a.x) (zero_add a.y)
  add_zero a := congrArg₂ CufftComplex.mk (add_zero a.x) (add_zero a.y)
  add_comm a b := congrArg₂ CufftComplex.mk (add_comm a.x b.x) (add_comm a.y b.y)

end Complex

variable {F : Type} [Field F]

/-! ## `PhaseDifference` -/

/-- `BLOCK_X_SIZE` and `BLOCK_Y_SIZE`. -/
def centroidBlock : Dim3 := ⟨32, 32⟩

/-- `TOTAL_BLOCK_SIZE`. -/
def totalBlockSize : Nat := 1024

/-- An element of a device array, where there is none before the first. -/
def deviceAt (data : Nat → CufftComplex F) (idx : Int) : Outcome (CufftComplex F) :=
  if 0 ≤ idx then .ok (data idx.toNat) else .undefined

/-- `diff` of a thread, whose place is computed in `unsigned int` and used as an `int`. -/
def phaseDiff (data : Nat → CufftComplex F) (xSize xStride ySize : Nat) (t : ThreadStep) :
    Outcome (CufftComplex F) :=
  let y := intOfUnsigned (t.posY centroidBlock)
  let x := intOfUnsigned (t.posX centroidBlock)
  if x < xSize ∧ 1 ≤ y ∧ y < ySize then do
    let prevIdx ← int32 ((← int32 ((y - 1) * xStride)) + x)
    let curIdx ← int32 ((← int32 (y * xStride)) + x)
    let cur ← deviceAt data curIdx
    let prev ← deviceAt data prevIdx
    return cuCmulf (cuConjf prev) cur
  else return 0

/-- `PhaseDifference`. -/
def phaseDifference (data : Nat → CufftComplex F) (xSize xStride ySize gridX : Nat) :
    ThreadStep → (ReductionCell → Option (CufftComplex F)) →
      Outcome (Option (ReductionCell × Option (CufftComplex F))) :=
  reduceStep centroidBlock 10 (fun blockX blockY => index32 (blockX + blockY * gridX))
    (fun t => do return some (← phaseDiff data xSize xStride ySize t)) fun _ _ acc => return acc

/-! ## `ReduceComplexSingleBlock` -/

/-- `r`: what a thread adds up of the results of the blocks. -/
def complexSum (nElem : Nat) (dArray : ReductionCell → Option (CufftComplex F)) (t : ThreadStep) :
    Outcome (Option (CufftComplex F)) :=
  (stridedRange t.threadX nElem totalBlockSize).foldlM (fun r idx => do
    -- `idx += TOTAL_BLOCK_SIZE`
    let _ ← index32 (idx + totalBlockSize)
    return if idx < nElem then Option.map₂ (· + ·) r (dArray (.result idx)) else r) (some 0)

/-- `ReduceComplexSingleBlock`. -/
def reduceComplexSingleBlock (nElem : Nat) (t : ThreadStep)
    (dArray : ReductionCell → Option (CufftComplex F)) :
    Outcome (Option (ReductionCell × Option (CufftComplex F))) :=
  reduceStep ⟨totalBlockSize, 1⟩ 10 (fun _ _ => .ok 0) (complexSum nElem dArray)
    (fun _ _ acc => .ok acc) t dArray

/-! ## `CalculateDopplerCentroid` -/

/-- `grid_size`, which is computed in `unsigned int`. -/
def centroidGrid (rangeSize azimuthSize : Nat) : Dim3 :=
  ⟨(rangeSize + 31) % 2 ^ 32 / 32, (azimuthSize + 31) % 2 ^ 32 / 32⟩

/-- What a launch finds of an earlier one: the results, and nothing in shared memory. -/
def deviceResults (m : ReductionCell → Option (CufftComplex F)) :
    ReductionCell → Option (CufftComplex F)
  | .sharedAcc _ _ _ => none
  | .result index => m (.result index)

/-- `h_res`: the first element of the array of sums, after both launches. A grid that the device
does not take is found at last. -/
def dopplerSum (s : Scheduler) (img : DevicePaddedImage F) : Outcome (Option (CufftComplex F)) := do
  let azimuthSize ← index32 img.ySize
  let rangeSize ← index32 img.xSize
  let xStride ← index32 img.xStride
  let grid := centroidGrid rangeSize azimuthSize
  let totalBlocks ← index32 (grid.x * grid.y)
  let dSum ← launchSteps s grid centroidBlock 12
    (phaseDifference img.data rangeSize xStride azimuthSize grid.x) fun _ => none
  let dSum ← launchSteps s ⟨1, 1⟩ ⟨totalBlockSize, 1⟩ 12
    (reduceComplexSingleBlock totalBlocks) (deviceResults dSum)
  Outcome.require grid.Valid
  return dSum (.result 0)

/-- `CalculateDopplerCentroid`. -/
def calculateDopplerCentroid (pi : F) (atan2 : F → F → F) (s : Scheduler)
    (img : DevicePaddedImage F) (prf : F) : Outcome (Option F) := do
  let hRes ← dopplerSum s img
  return hRes.map fun hRes =>
    let angle := atan2 hRes.y hRes.x
    let fraction := angle / (2 * pi)
    prf * fraction

/-! ## The sum -/

/-- The sum over all neighbours in azimuth. -/
def phaseDifferences (img : DevicePaddedImage F) : CufftComplex F :=
  ∑ y ∈ Finset.Ico 1 img.ySize, ∑ x ∈ Finset.range img.xSize,
    cuCmulf (cuConjf (img.data ((y - 1) * img.xStride + x))) (img.data (y * img.xStride + x))

/-- Whatever the image holds, the first element is the sum, and made of results that were
written. -/
def SumsPhases (s : Scheduler) (img : DevicePaddedImage F) : Prop :=
  ∀ memory, dopplerSum s (img.withData memory) = .ok (some (phaseDifferences (img.withData memory)))

/-- There is an image, the device takes its grid, and the indices of two lines or more fit an
`int`. -/
structure PhasesFit (img : DevicePaddedImage F) : Prop where
  columns : 0 < img.xSize ∧ img.xStride < 2147483648
  rows : 0 < img.ySize ∧ img.ySize ≤ 2097120
  index : 1 < img.ySize → (img.ySize - 1) * img.xStride + img.xSize ≤ 2147483648

/-! ## The grid -/

section Grid

omit [Field F]

variable {img : DevicePaddedImage F}

theorem centroidGrid_eq {rangeSize azimuthSize : Nat} (hx : rangeSize < 2147483648)
    (hy : azimuthSize < 2147483648) :
    centroidGrid rangeSize azimuthSize = ⟨(rangeSize + 31) / 32, (azimuthSize + 31) / 32⟩ := by
  rw [centroidGrid, Nat.mod_eq_of_lt (by omega), Nat.mod_eq_of_lt (by omega)]

theorem PhasesFit.sizes (h : PhasesFit img) :
    (0 < img.xSize ∧ img.xSize < 2147483648) ∧ 0 < img.ySize ∧ img.ySize ≤ 2097120 := by
  have hwidth := img.xSize_le
  have hcolumns := h.columns
  exact ⟨by omega, h.rows⟩

theorem PhasesFit.grid_eq (h : PhasesFit img) :
    centroidGrid img.xSize img.ySize = ⟨(img.xSize + 31) / 32, (img.ySize + 31) / 32⟩ := by
  have hsizes := h.sizes
  exact centroidGrid_eq (by omega) (by omega)

theorem PhasesFit.valid (h : PhasesFit img) : (centroidGrid img.xSize img.ySize).Valid := by
  have hsizes := h.sizes
  rw [h.grid_eq]
  show (0 < (img.xSize + 31) / 32 ∧ (img.xSize + 31) / 32 ≤ 2147483647) ∧
    0 < (img.ySize + 31) / 32 ∧ (img.ySize + 31) / 32 ≤ 65535
  omega

/-- An image of so many lines is narrow. -/
theorem PhasesFit.width_le (h : PhasesFit img) (hlines : 1 < img.ySize) :
    img.xSize * img.ySize ≤ 2147483648 ∧ img.xSize ≤ 1073741824 := by
  have hindex := h.index hlines
  have hwidth : (img.ySize - 1) * img.xSize ≤ (img.ySize - 1) * img.xStride :=
    Nat.mul_le_mul_left _ img.xSize_le
  have hsize : img.xSize * img.ySize = (img.ySize - 1) * img.xSize + img.xSize := by
    rw [← Nat.succ_mul, Nat.succ_eq_add_one, Nat.sub_add_cancel h.rows.1, Nat.mul_comm]
  have htwo : img.xSize * 2 ≤ img.xSize * img.ySize := Nat.mul_le_mul_left _ hlines
  omega

/-- The number of blocks leaves room for a step in an `int`. -/
theorem PhasesFit.totalBlocks_le (h : PhasesFit img) :
    (centroidGrid img.xSize img.ySize).x * (centroidGrid img.xSize img.ySize).y ≤ 1073741824 := by
  rw [h.grid_eq]
  show (img.xSize + 31) / 32 * ((img.ySize + 31) / 32) ≤ 1073741824
  have hsizes := h.sizes
  by_cases hlines : 1 < img.ySize
  · have hle := (h.width_le hlines).1
    have hblocks : (img.xSize + 31) / 32 * ((img.ySize + 31) / 32 * 2) ≤ img.xSize * img.ySize :=
      Nat.mul_le_mul (by omega) (by omega)
    rw [← Nat.mul_assoc] at hblocks
    omega
  · have hone : (img.ySize + 31) / 32 = 1 := by omega
    rw [hone]
    omega

end Grid

/-! ## The blocks -/

section Blocks

/-- What a place of the grid adds, which is nothing outside of the image and in its first line. -/
def phaseTerm (data : Nat → CufftComplex F) (xSize xStride ySize x y : Nat) : CufftComplex F :=
  if x < xSize ∧ 1 ≤ y ∧ y < ySize then
    cuCmulf (cuConjf (data ((y - 1) * xStride + x))) (data (y * xStride + x))
  else 0

theorem int32_natCast {n : Nat} (h : n < 2147483648) : int32 (n : Int) = .ok (n : Int) :=
  int32_of_bounds (by omega) (by omega)

omit [Field F] in
theorem deviceAt_natCast (data : Nat → CufftComplex F) (n : Nat) :
    deviceAt data (n : Int) = .ok (data n) := by
  rw [deviceAt, if_pos (Int.natCast_nonneg n), Int.toNat_natCast]

/-- A place that an `int` holds. -/
theorem phaseDiff_of_lt {data : Nat → CufftComplex F} {xSize xStride ySize : Nat} {t : ThreadStep}
    (hx : t.posX centroidBlock < 2147483648) (hy : t.posY centroidBlock < 2147483648)
    (hindex : 1 < ySize → (ySize - 1) * xStride + xSize ≤ 2147483648) :
    phaseDiff data xSize xStride ySize t = .ok (phaseTerm data xSize xStride ySize
      (t.posX centroidBlock) (t.posY centroidBlock)) := by
  simp only [phaseDiff, phaseTerm, intOfUnsigned_of_lt hx, intOfUnsigned_of_lt hy]
  generalize t.posX centroidBlock = x
  generalize t.posY centroidBlock = y
  by_cases hin : x < xSize ∧ 1 ≤ y ∧ y < ySize
  · obtain ⟨hcolumn, hfirst, hline⟩ := hin
    have hbound := hindex (by omega)
    have hrow : y * xStride ≤ (ySize - 1) * xStride := Nat.mul_le_mul_right _ (by omega)
    have hprev : (y - 1) * xStride ≤ y * xStride := Nat.mul_le_mul_right _ (by omega)
    have hprevRow : ((y : Int) - 1) * xStride = ((y - 1) * xStride : Nat) := by
      rw [Nat.cast_mul, Nat.cast_sub hfirst, Nat.cast_one]
    have hcurRow : (y : Int) * xStride = (y * xStride : Nat) := (Nat.cast_mul y xStride).symm
    rw [if_pos ⟨by omega, by omega, by omega⟩, if_pos ⟨hcolumn, hfirst, hline⟩, hprevRow, hcurRow,
      int32_natCast (by omega), Outcome.ok_bind, ← Nat.cast_add, int32_natCast (by omega),
      Outcome.ok_bind, int32_natCast (by omega), Outcome.ok_bind, ← Nat.cast_add,
      int32_natCast (by omega), Outcome.ok_bind, deviceAt_natCast, deviceAt_natCast]
    rfl
  · rw [if_neg hin, if_neg (by omega)]
    rfl

/-- A place behind the greatest `int` is not taken for one of the image. -/
theorem phaseDiff_behind {data : Nat → CufftComplex F} {xSize xStride ySize : Nat} {t : ThreadStep}
    (hy : t.posY centroidBlock < 2147483648) (hline : ySize ≤ 1) :
    phaseDiff data xSize xStride ySize t = .ok 0 := by
  simp only [phaseDiff, intOfUnsigned_of_lt hy]
  rw [if_neg (by omega)]
  rfl

variable {img : DevicePaddedImage F}

/-- What the threads of a block add up. -/
def blockTerm (img : DevicePaddedImage F) (blockX blockY i : Nat) : CufftComplex F :=
  phaseTerm img.data img.xSize img.xStride img.ySize (i % 32 + blockX * 32) (i / 32 + blockY * 32)

theorem PhasesFit.phaseDiff_eq (h : PhasesFit img) {t : ThreadStep}
    (hbx : t.blockX < (centroidGrid img.xSize img.ySize).x)
    (hby : t.blockY < (centroidGrid img.xSize img.ySize).y) (hx : t.threadX < centroidBlock.x)
    (hy : t.threadY < centroidBlock.y) :
    phaseDiff img.data img.xSize img.xStride img.ySize t =
      .ok (blockTerm img t.blockX t.blockY (t.sharedIdx centroidBlock)) := by
  rw [h.grid_eq] at hbx hby
  have hsizes := h.sizes
  replace hbx : t.blockX < (img.xSize + 31) / 32 := hbx
  replace hby : t.blockY < (img.ySize + 31) / 32 := hby
  replace hx : t.threadX < 32 := hx
  replace hy : t.threadY < 32 := hy
  have hplaceX : t.sharedIdx centroidBlock % 32 + t.blockX * 32 = t.posX centroidBlock := by
    rw [show t.sharedIdx centroidBlock % 32 = t.threadX from sharedIdx_mod hx]
    rfl
  have hplaceY : t.sharedIdx centroidBlock / 32 + t.blockY * 32 = t.posY centroidBlock := by
    rw [show t.sharedIdx centroidBlock / 32 = t.threadY from sharedIdx_div hx]
    rfl
  have hposX : t.posX centroidBlock < img.xSize + 32 := by
    show t.threadX + t.blockX * 32 < img.xSize + 32
    omega
  have hposY : t.posY centroidBlock < img.ySize + 32 := by
    show t.threadY + t.blockY * 32 < img.ySize + 32
    omega
  rw [blockTerm, hplaceX, hplaceY]
  by_cases hint : t.posX centroidBlock < 2147483648
  · exact phaseDiff_of_lt hint (by omega) h.index
  -- only an image of one line is so wide
  · have hline : img.ySize ≤ 1 := by
      by_contra hlines
      have hnarrow := (h.width_le (not_le.mp hlines)).2
      omega
    rw [phaseDiff_behind (by omega) hline, phaseTerm, if_neg (by omega)]

/-- The blocks cover the image, and each place is in one of them. -/
theorem PhasesFit.sum_blockTerm (h : PhasesFit img) :
    ∑ k ∈ Finset.range
        ((centroidGrid img.xSize img.ySize).x * (centroidGrid img.xSize img.ySize).y),
      ∑ i ∈ Finset.range 1024, blockTerm img (k % (centroidGrid img.xSize img.ySize).x)
        (k / (centroidGrid img.xSize img.ySize).x) i = phaseDifferences img := by
  have hcolumns := h.columns
  rw [h.grid_eq]
  show ∑ k ∈ Finset.range ((img.xSize + 31) / 32 * ((img.ySize + 31) / 32)),
    ∑ i ∈ Finset.range (32 * 32), phaseTerm img.data img.xSize img.xStride img.ySize
      (i % 32 + k % ((img.xSize + 31) / 32) * 32) (i / 32 + k / ((img.xSize + 31) / 32) * 32) = _
  rw [sum_blocks (by omega) (by omega) _ _
    (phaseTerm img.data img.xSize img.xStride img.ySize), phaseDifferences]
  symm
  -- the pixels behind the line's end add nothing
  have hline (y : Nat) (hy : y ∈ Finset.Ico 1 img.ySize) : ∑ x ∈ Finset.range img.xSize,
      cuCmulf (cuConjf (img.data ((y - 1) * img.xStride + x))) (img.data (y * img.xStride + x)) =
      ∑ x ∈ Finset.range (32 * ((img.xSize + 31) / 32)),
        phaseTerm img.data img.xSize img.xStride img.ySize x y := by
    obtain ⟨hfirst, hlast⟩ := Finset.mem_Ico.mp hy
    have hin : ∀ x ∈ Finset.range img.xSize,
        cuCmulf (cuConjf (img.data ((y - 1) * img.xStride + x))) (img.data (y * img.xStride + x)) =
          phaseTerm img.data img.xSize img.xStride img.ySize x y := by
      intro x hx
      rw [phaseTerm, if_pos ⟨Finset.mem_range.mp hx, hfirst, hlast⟩]
    rw [Finset.sum_congr rfl hin]
    apply Finset.sum_subset
    · intro x hx
      have hx := Finset.mem_range.mp hx
      exact Finset.mem_range.mpr (by omega)
    · intro x _ hx
      rw [phaseTerm, if_neg fun hin => hx (Finset.mem_range.mpr hin.1)]
  rw [Finset.sum_congr rfl hline]
  -- nor do the first line and the ones behind the last
  apply Finset.sum_subset
  · intro y hy
    have hy := Finset.mem_Ico.mp hy
    exact Finset.mem_range.mpr (by omega)
  · intro y _ hy
    refine Finset.sum_eq_zero fun x _ => ?_
    rw [phaseTerm, if_neg fun hin => hy (Finset.mem_Ico.mpr hin.2)]

/-- Each block leaves the sum of its differences. -/
theorem PhasesFit.exists_blocks (h : PhasesFit img) (s : Scheduler) :
    ∃ dSum, launchSteps s (centroidGrid img.xSize img.ySize) centroidBlock 12
        (phaseDifference img.data img.xSize img.xStride img.ySize
          (centroidGrid img.xSize img.ySize).x) (fun _ => none) = .ok dSum ∧
      ∀ k < (centroidGrid img.xSize img.ySize).x * (centroidGrid img.xSize img.ySize).y,
        dSum (.result k) = some (∑ i ∈ Finset.range 1024,
          blockTerm img (k % (centroidGrid img.xSize img.ySize).x)
            (k / (centroidGrid img.xSize img.ySize).x) i) := by
  have htotal := h.totalBlocks_le
  have hpos : 0 < (centroidGrid img.xSize img.ySize).x := h.valid.1.1
  -- a thread of the grid stores the differences of its own pixel
  have hstep : ∀ t : ThreadStep, t.blockX < (centroidGrid img.xSize img.ySize).x →
      t.blockY < (centroidGrid img.xSize img.ySize).y → t.threadX < centroidBlock.x →
      t.threadY < centroidBlock.y →
      (do return some (← phaseDiff img.data img.xSize img.xStride img.ySize t) : Outcome _) =
        .ok (some (blockTerm img t.blockX t.blockY (t.sharedIdx centroidBlock))) ∧
      (∀ acc : Option (CufftComplex F), (do return acc : Outcome _) = .ok acc) ∧
      index32 (t.blockX + t.blockY * (centroidGrid img.xSize img.ySize).x) =
        .ok (t.blockX + t.blockY * (centroidGrid img.xSize img.ySize).x) := by
    intro t hbx hby hx hy
    have hindex := row_index_lt hbx hby
    refine ⟨?_, fun acc => rfl, index32_of_lt (by omega)⟩
    rw [h.phaseDiff_eq hbx hby hx hy]
    rfl
  -- the blocks have results of their own, by the reduction
  obtain ⟨dSum, hrun, hresults⟩ : ∃ dSum, launchSteps s (centroidGrid img.xSize img.ySize)
      centroidBlock (10 + 2) (phaseDifference img.data img.xSize img.xStride img.ySize
        (centroidGrid img.xSize img.ySize).x) (fun _ => none) = .ok dSum ∧
      ∀ blockX < (centroidGrid img.xSize img.ySize).x,
        ∀ blockY < (centroidGrid img.xSize img.ySize).y,
          dSum (.result (blockX + blockY * (centroidGrid img.xSize img.ySize).x)) =
            some (∑ i ∈ Finset.range (2 ^ 10), blockTerm img blockX blockY i) :=
    exists_launchReduce s (centroidGrid img.xSize img.ySize) centroidBlock 10
      (fun blockX blockY => blockX + blockY * (centroidGrid img.xSize img.ySize).x)
      (blockTerm img) (fun _ _ acc => acc) h.valid rfl
      (fun x y x' y' hx hy hx' hy' heq =>
        row_index_inj hx hx' (by rw [Nat.add_comm, heq, Nat.add_comm])) hstep fun _ => none
  refine ⟨dSum, hrun, fun k hk => ?_⟩
  have hblock := hresults (k % (centroidGrid img.xSize img.ySize).x) (Nat.mod_lt k hpos)
    (k / (centroidGrid img.xSize img.ySize).x) (Nat.div_lt_of_lt_mul hk)
  rwa [Nat.mod_add_div'] at hblock

end Blocks

/-! ## The second launch -/

section Second

/-- What a thread of the second launch reads. -/
def readResults (nElem : Nat) (t : ThreadStep) (m : ReductionCell → Option (CufftComplex F)) :
    Option (CufftComplex F) :=
  (stridedRange t.threadX nElem totalBlockSize).foldl
    (fun r idx => Option.map₂ (· + ·) r (m (.result idx))) (some 0)

theorem complexSum_eq {nElem : Nat} (hfits : nElem ≤ 1073741824) (t : ThreadStep)
    (m : ReductionCell → Option (CufftComplex F)) :
    complexSum nElem m t = .ok (readResults nElem t m) := by
  apply Outcome.foldlM_eq_ok
  intro idx hidx r
  have hless := ((mem_stridedRange (by decide)).mp hidx).1
  have hnext : idx + totalBlockSize < 2147483648 := by
    rw [totalBlockSize]
    omega
  rw [index32_of_lt hnext, Outcome.ok_bind, if_pos hless]
  rfl

/-- The second launch leaves the sum of the results in the first element. -/
theorem exists_reduceComplexSingleBlock (s : Scheduler) {nElem : Nat} (hfits : nElem ≤ 1073741824)
    {dSum : ReductionCell → Option (CufftComplex F)} {results : Nat → CufftComplex F}
    (hresults : ∀ k < nElem, dSum (.result k) = some (results k)) :
    ∃ dSum', launchSteps s ⟨1, 1⟩ ⟨totalBlockSize, 1⟩ 12 (reduceComplexSingleBlock nElem) dSum =
        .ok dSum' ∧ dSum' (.result 0) = some (∑ k ∈ Finset.range nElem, results k) := by
  -- a thread reads the results of the first launch only
  have hread : ∀ t m m', (∀ i, m (.result i) = m' (.result i)) →
      readResults (F := F) nElem t m = readResults nElem t m' := by
    intro t m m' hsame
    apply List.foldl_ext
    intro r idx _
    rw [hsame]
  -- and adds up those of its own stride
  have hsums : ∀ t ∈ threadSteps ⟨1, 1⟩ ⟨totalBlockSize, 1⟩ 1, readResults nElem t dSum =
      some ((stridedRange (t.sharedIdx ⟨totalBlockSize, 1⟩) nElem totalBlockSize).map
        results).sum := by
    intro t ht
    obtain ⟨-, -, -, hy⟩ := mem_threadSteps.mp ht
    have hplace : t.sharedIdx ⟨totalBlockSize, 1⟩ = t.threadX := by
      rw [ThreadStep.sharedIdx, Nat.lt_one_iff.mp hy, Nat.zero_mul, Nat.add_zero]
    have hknown : readResults nElem t dSum =
        (stridedRange t.threadX nElem totalBlockSize).foldl
          (fun r idx => Option.map₂ (· + ·) r (some (results idx))) (some 0) := by
      apply List.foldl_ext
      intro r idx hidx
      rw [hresults idx ((mem_stridedRange (by decide)).mp hidx).1]
    rw [hplace, hknown, foldl_map₂_some, zero_add]
  obtain ⟨dSum', hrun, htotal⟩ : ∃ dSum', launchSteps s ⟨1, 1⟩ ⟨totalBlockSize, 1⟩ (10 + 2)
      (reduceComplexSingleBlock nElem) dSum = .ok dSum' ∧ dSum' (.result 0) =
        some (∑ i ∈ Finset.range (2 ^ 10),
          ((stridedRange i nElem totalBlockSize).map results).sum) :=
    exists_launchSecond s rfl (fun t _ m => complexSum_eq hfits t m) hread dSum hsums
  refine ⟨dSum', hrun, htotal.trans (congrArg some ?_)⟩
  exact sum_stridedRange (by decide) nElem results

end Second

/-! ## Both launches -/

section Centroid

variable {s : Scheduler} {img : DevicePaddedImage F}

theorem PhasesFit.dopplerSum_eq (h : PhasesFit img) (s : Scheduler) :
    dopplerSum s img = .ok (some (phaseDifferences img)) := by
  have hwidth := img.xSize_le
  have hcolumns := h.columns
  have hrows := h.rows
  have htotal := h.totalBlocks_le
  obtain ⟨dSum, hblocks, hresults⟩ := h.exists_blocks s
  have hglobal : ∀ k <
      (centroidGrid img.xSize img.ySize).x * (centroidGrid img.xSize img.ySize).y,
      deviceResults dSum (.result k) = some (∑ i ∈ Finset.range 1024,
        blockTerm img (k % (centroidGrid img.xSize img.ySize).x)
          (k / (centroidGrid img.xSize img.ySize).x) i) := hresults
  obtain ⟨dSum', hsecond, hfirst⟩ := exists_reduceComplexSingleBlock s htotal hglobal
  rw [h.sum_blockTerm] at hfirst
  rw [dopplerSum, index32_of_lt (by omega), Outcome.ok_bind, index32_of_lt (by omega),
    Outcome.ok_bind, index32_of_lt (by omega), Outcome.ok_bind]
  show (do
    let totalBlocks ← index32
      ((centroidGrid img.xSize img.ySize).x * (centroidGrid img.xSize img.ySize).y)
    let dSum ← launchSteps s (centroidGrid img.xSize img.ySize) centroidBlock 12
      (phaseDifference img.data img.xSize img.xStride img.ySize
        (centroidGrid img.xSize img.ySize).x) fun _ => none
    let dSum ← launchSteps s ⟨1, 1⟩ ⟨totalBlockSize, 1⟩ 12
      (reduceComplexSingleBlock totalBlocks) (deviceResults dSum)
    Outcome.require (centroidGrid img.xSize img.ySize).Valid
    return dSum (.result 0) : Outcome _) = _
  rw [index32_of_lt (by omega), Outcome.ok_bind, hblocks, Outcome.ok_bind, hsecond,
    Outcome.ok_bind, Outcome.require_of h.valid, Outcome.ok_bind, hfirst]
  rfl

/-- The last element is one of the image, and the thread that has it computes its index. -/
theorem phasesFit_of_dopplerSum {hRes : Option (CufftComplex F)}
    (h : dopplerSum s img = .ok hRes) : PhasesFit img := by
  have hwidth := img.xSize_le
  simp only [dopplerSum, Outcome.bind_eq_ok, index32_eq_ok] at h
  obtain ⟨_, ⟨hySize, rfl⟩, _, ⟨hxSize, rfl⟩, _, ⟨hxStride, rfl⟩, _, ⟨htotal, rfl⟩, dSum, hblocks,
    _, _, _, hrequire, -⟩ := h
  -- a launch that was refused leaves nothing to copy back
  have hvalid : (centroidGrid img.xSize img.ySize).Valid := by
    by_contra hrefused
    rw [Outcome.require_of_not hrefused] at hrequire
    cases hrequire
  have hgrid := centroidGrid_eq hxSize hySize
  obtain ⟨⟨hx, -⟩, hy, hyMax⟩ : (0 < (img.xSize + 31) / 32 ∧ (img.xSize + 31) / 32 ≤ 2147483647) ∧
      0 < (img.ySize + 31) / 32 ∧ (img.ySize + 31) / 32 ≤ 65535 := by
    rwa [hgrid] at hvalid
  refine ⟨⟨by omega, hxStride⟩, ⟨by omega, by omega⟩, fun hlines => ?_⟩
  -- the thread of the last pixel has the greatest index
  have ht : (⟨0, (img.xSize - 1) / 32, (img.ySize - 1) / 32, (img.xSize - 1) % 32,
      (img.ySize - 1) % 32⟩ : ThreadStep) ∈
      threadSteps (centroidGrid img.xSize img.ySize) centroidBlock 12 := by
    rw [hgrid]
    refine mem_threadSteps.mpr ⟨Nat.succ_pos 11, ⟨?_, ?_⟩, Nat.mod_lt _ (by decide),
      Nat.mod_lt _ (by decide)⟩
    · show (img.xSize - 1) / 32 < (img.xSize + 31) / 32
      omega
    · show (img.ySize - 1) / 32 < (img.ySize + 31) / 32
      omega
  obtain ⟨_, _, hstep⟩ := ok_of_launchSteps hblocks hvalid ht
  obtain ⟨_, hsum, -⟩ := Outcome.bind_eq_ok.mp hstep
  obtain ⟨_, hdiff, -⟩ := Outcome.bind_eq_ok.mp hsum
  have hposX : (img.xSize - 1) % 32 + (img.xSize - 1) / 32 * 32 = img.xSize - 1 := by omega
  have hposY : (img.ySize - 1) % 32 + (img.ySize - 1) / 32 * 32 = img.ySize - 1 := by omega
  -- its step has computed that index, so it fits
  simp only [phaseDiff, ThreadStep.posX, ThreadStep.posY, centroidBlock, hposX, hposY] at hdiff
  rw [intOfUnsigned_of_lt (by omega), intOfUnsigned_of_lt (by omega),
    if_pos ⟨by omega, by omega, by omega⟩] at hdiff
  obtain ⟨_, -, hdiff⟩ := Outcome.bind_eq_ok.mp hdiff
  obtain ⟨_, -, hdiff⟩ := Outcome.bind_eq_ok.mp hdiff
  obtain ⟨row, hrow, hdiff⟩ := Outcome.bind_eq_ok.mp hdiff
  obtain ⟨curIdx, hcur, -⟩ := Outcome.bind_eq_ok.mp hdiff
  obtain ⟨-, rfl⟩ := int32_eq_ok.mp hrow
  obtain ⟨hfits, -⟩ := int32_eq_ok.mp hcur
  rw [← Nat.cast_mul, ← Nat.cast_add] at hfits
  have hless := (fits32_iff.mp hfits).2
  omega

/-- The centroid is that of the angle of the sum. -/
theorem PhasesFit.calculateDopplerCentroid_eq (h : PhasesFit img) (pi : F) (atan2 : F → F → F)
    (s : Scheduler) (prf : F) :
    calculateDopplerCentroid pi atan2 s img prf =
      .ok (some (prf * (atan2 (phaseDifferences img).y (phaseDifferences img).x / (2 * pi)))) := by
  rw [calculateDopplerCentroid, h.dopplerSum_eq s]
  rfl

omit [Field F] in
theorem PhasesFit.withData (h : PhasesFit img) (memory : Nat → CufftComplex F) :
    PhasesFit (img.withData memory) :=
  ⟨h.columns, h.rows, h.index⟩

theorem SumsPhases.phasesFit (h : SumsPhases s img) : PhasesFit img :=
  phasesFit_of_dopplerSum (h img.data)

/-- **When the sum is that of the whole image.** Where the indices fit, each pair of neighbours is
in one block, and each block is read once. -/
theorem sumsPhases_iff (s : Scheduler) (img : DevicePaddedImage F) :
    SumsPhases s img ↔ PhasesFit img := by
  constructor
  · intro h
    exact h.phasesFit
  · intro h memory
    exact (h.withData memory).dopplerSum_eq s

/-- An image of more elements than an `int` counts. -/
def largeImage : DevicePaddedImage ℚ where
  data := fun _ => ⟨0, 0⟩
  xSize := 65536
  ySize := 32769
  xStride := 65536
  yStride := 32769
  xSize_le := le_refl 65536
  ySize_le := le_refl 32769

theorem not_sumsPhases_largeImage : ¬ SumsPhases Scheduler.byPhase largeImage := by
  intro h
  have hindex := h.phasesFit.index (by decide)
  revert hindex
  decide

end Centroid

end Alus.PalsarFocus
