import Mathlib.Algebra.BigOperators.Pi
import Mathlib.Data.Rat.Defs
import Alus.Lib.Atomics
import Alus.PalsarFocus.DcBias

/-!
# The mean of the raw samples

`CalculateDCBias` (`palsar-focus/src/dc_bias.cu`) counts the samples that are not marked as missing
and adds them up: each thread in numbers of 32 bits, and the threads together in numbers of 64 bits.
The mean is computed from the sums, and the count as an `int`.

A quotient of `double` is exact here. It is not a number where it is divided by zero.
-/

namespace Alus.PalsarFocus

open Alus.Lib

/-! ## `ReduceSumRawIQData` -/

/-- `acc_i`, `acc_q` and `n_samples` of a thread, of type `uint32_t`. -/
structure RawSums where
  accI : Nat
  accQ : Nat
  nSamples : Nat
  deriving DecidableEq

/-- A sample is added, unless there is none. -/
def RawSums.add (acc : RawSums) (sample : Iq8) : RawSums :=
  if sample = noData then acc
  else ⟨(acc.accI + sample.i.toNat) % 2 ^ 32, (acc.accQ + sample.q.toNat) % 2 ^ 32,
    (acc.nSamples + 1) % 2 ^ 32⟩

/-- `block_size`, of `CalculateDCBias`. -/
def biasBlockSize : Nat := 1024

/-- What a thread adds up. -/
def sumRawIqData (data : Nat → Iq8) (xSize ySize xStart yStart yStep : Nat) : Outcome RawSums :=
  (stridedRange yStart ySize yStep).foldlM (fun acc y => do
    let acc ← (stridedRange xStart xSize biasBlockSize).foldlM (fun acc x => do
      let idx ← index32 (y * xSize + x)
      -- `x += x_step`
      let _ ← index32 (x + biasBlockSize)
      return acc.add (data idx)) acc
    -- `y += y_step`
    let _ ← index32 (y + yStep)
    return acc) ⟨0, 0, 0⟩

/-- `ReduceSumRawIQData`, whose threads make three atomic additions each. -/
def reduceSumRawIqData (data : Nat → Iq8) (xSize ySize : Nat) (grid : Dim3) (t : ThreadStep) :
    Outcome (Nat × Nat) := do
  let acc ← sumRawIqData data xSize ySize t.threadX t.blockY grid.y
  return (t.phase, match t.phase with
    | 0 => acc.accI
    | 1 => acc.accQ
    | _ => acc.nSamples)

/-! ## `CalculateDCBias` -/

/-- `SARResults`, as far as the bias is concerned. A quotient by zero is `none`. -/
structure BiasResults where
  totalSamples : Nat
  dcI : Option ℚ
  dcQ : Option ℚ

/-- A conversion of `unsigned long long` to `int`. -/
def intOfUnsigned (n : Nat) : Int := (n + 2 ^ 31 : Int) % 2 ^ 32 - 2 ^ 31

/-- The quotient of a `double` and an `int`. -/
def biasQuotient (sum : Nat) (totalSamples : Int) : Option ℚ :=
  if totalSamples = 0 then none else some ((sum : ℚ) / totalSamples)

/-- `grid_size`, whose components are `unsigned int`. -/
def biasGridSize (multiprocessorCount : Nat) : Dim3 := ⟨1, multiprocessorCount * 2 % 2 ^ 32⟩

/-- `CalculateDCBias`. -/
def calculateDcBias (s : AtomicOrder) (signalData : Nat → Iq8) (img : ImgFormat)
    (multiprocessorCount : Nat) : Outcome BiasResults := do
  let grid := biasGridSize multiprocessorCount
  let hResult ← launchAtomicAdds s grid ⟨biasBlockSize, 1⟩ 3 64
    (reduceSumRawIqData signalData img.rangeSize img.azimuthSize grid) fun _ => 0
  let totalSamples := intOfUnsigned (hResult 2)
  return ⟨(totalSamples % 2 ^ 64).toNat, biasQuotient (hResult 0) totalSamples,
    biasQuotient (hResult 1) totalSamples⟩

/-! ## The mean -/

/-- What a sample adds to the sums: its `i`, its `q`, and one. -/
def sampleWeight (sample : Iq8) : Nat × Nat × Nat :=
  if sample = noData then 0 else (sample.i.toNat, sample.q.toNat, 1)

/-- The sums over the image. -/
def imageSums (data : Nat → Iq8) (xSize ySize : Nat) : Nat × Nat × Nat :=
  ∑ y ∈ Finset.range ySize, ∑ x ∈ Finset.range xSize, sampleWeight (data (y * xSize + x))

/-- The sums over every so many rows and columns. -/
def stridedSums (data : Nat → Iq8) (xSize ySize xStart yStart yStep : Nat) : Nat × Nat × Nat :=
  ((stridedRange yStart ySize yStep).map fun y =>
    ((stridedRange xStart xSize biasBlockSize).map fun x =>
      sampleWeight (data (y * xSize + x))).sum).sum

/-- The valid samples are counted, and the bias is their mean. Without any, nothing is divided by
zero. -/
structure IsMean (data : Nat → Iq8) (img : ImgFormat) (results : BiasResults) : Prop where
  samples : results.totalSamples = (imageSums data img.rangeSize img.azimuthSize).2.2
  mean : 0 < (imageSums data img.rangeSize img.azimuthSize).2.2 →
    results.dcI = some (((imageSums data img.rangeSize img.azimuthSize).1 : ℚ) /
      (imageSums data img.rangeSize img.azimuthSize).2.2) ∧
    results.dcQ = some (((imageSums data img.rangeSize img.azimuthSize).2.1 : ℚ) /
      (imageSums data img.rangeSize img.azimuthSize).2.2)
  noSamples : (imageSums data img.rangeSize img.azimuthSize).2.2 = 0 →
    results.dcI ≠ none ∧ results.dcQ ≠ none

/-- `CalculateDCBias` returns the mean. -/
def CalculatesMean (s : AtomicOrder) (data : Nat → Iq8) (img : ImgFormat)
    (multiprocessorCount : Nat) : Prop :=
  ∃ results, calculateDcBias s data img multiprocessorCount = .ok results ∧
    IsMean data img results

/-- There is a valid sample, the device takes the grid, the indices and the count fit an `int`, and
the sums of each thread fit 32 bits. -/
structure SumsFit (data : Nat → Iq8) (img : ImgFormat) (multiprocessorCount : Nat) : Prop where
  valid : 0 < (imageSums data img.rangeSize img.azimuthSize).2.2
  grid : (biasGridSize multiprocessorCount).Valid
  index : img.rangeSize * img.azimuthSize ≤ 2147483648
  nextX : img.rangeSize + 1024 ≤ 2147483648
  nextY : img.azimuthSize + (biasGridSize multiprocessorCount).y ≤ 2147483648
  count : (imageSums data img.rangeSize img.azimuthSize).2.2 < 2147483648
  sums : ∀ xStart < biasBlockSize, ∀ yStart < (biasGridSize multiprocessorCount).y,
    (stridedSums data img.rangeSize img.azimuthSize xStart yStart
      (biasGridSize multiprocessorCount).y).1 < 2 ^ 32 ∧
    (stridedSums data img.rangeSize img.azimuthSize xStart yStart
      (biasGridSize multiprocessorCount).y).2.1 < 2 ^ 32

/-! ## A thread -/

section Thread

variable {data : Nat → Iq8} {xSize ySize : Nat}

/-- The numbers of a thread are the sums in 32 bits. -/
def RawSums.wrap (e : Nat × Nat × Nat) : RawSums :=
  ⟨e.1 % 2 ^ 32, e.2.1 % 2 ^ 32, e.2.2 % 2 ^ 32⟩

theorem RawSums.add_wrap (e : Nat × Nat × Nat) (sample : Iq8) :
    (RawSums.wrap e).add sample = .wrap (e + sampleWeight sample) := by
  unfold RawSums.add sampleWeight RawSums.wrap
  split
  · rw [add_zero]
  · simp only [Nat.mod_add_mod, Prod.fst_add, Prod.snd_add]

theorem sumRawIqData_eq {yStep : Nat} (hpos : 0 < yStep) (hindex : xSize * ySize ≤ 2147483648)
    (hnextX : xSize + 1024 ≤ 2147483648) (hnextY : ySize + yStep ≤ 2147483648)
    (xStart yStart : Nat) :
    sumRawIqData data xSize ySize xStart yStart yStep =
      .ok (.wrap (stridedSums data xSize ySize xStart yStart yStep)) := by
  have hstart : (⟨0, 0, 0⟩ : RawSums) = .wrap 0 := rfl
  rw [sumRawIqData, hstart, stridedSums, ← zero_add (List.sum _)]
  apply foldlM_summed
  intro y hy e
  have hylt := ((mem_stridedRange hpos).mp hy).1
  have hrow := foldlM_summed (S := RawSums.wrap) (f := fun acc x => do
      let idx ← index32 (y * xSize + x)
      let _ ← index32 (x + biasBlockSize)
      return acc.add (data idx)) (g := fun x => sampleWeight (data (y * xSize + x)))
    (l := stridedRange xStart xSize biasBlockSize) (fun x hx e => by
      have hxlt := ((mem_stridedRange (by decide)).mp hx).1
      have hidx := row_index_lt hxlt hylt
      rw [index32_of_lt (by omega), Outcome.ok_bind, biasBlockSize, index32_of_lt (by omega),
        Outcome.ok_bind, RawSums.add_wrap]
      rfl) e
  rw [hrow, Outcome.ok_bind, index32_of_lt (by omega), Outcome.ok_bind]
  rfl

/-- The last sample is one of some thread, which computes its index and the next positions. -/
theorem fits_of_sumRawIqData {yStep : Nat} (hpos : 0 < yStep) (hx : 0 < xSize) (hy : 0 < ySize)
    (h : ∀ xStart < biasBlockSize, ∀ yStart < yStep,
      ∃ acc, sumRawIqData data xSize ySize xStart yStart yStep = .ok acc) :
    xSize * ySize ≤ 2147483648 ∧ xSize + 1024 ≤ 2147483648 ∧ ySize + yStep ≤ 2147483648 := by
  have hblock : 0 < biasBlockSize := by decide
  obtain ⟨acc, hacc⟩ := h ((xSize - 1) % biasBlockSize) (Nat.mod_lt _ hblock)
    ((ySize - 1) % yStep) (Nat.mod_lt _ hpos)
  have hlastRow : ySize - 1 ∈ stridedRange ((ySize - 1) % yStep) ySize yStep :=
    (mem_stridedRange hpos).mpr ⟨by omega, (ySize - 1) / yStep, (Nat.mod_add_div _ _).symm⟩
  have hlast : xSize - 1 ∈ stridedRange ((xSize - 1) % biasBlockSize) xSize biasBlockSize :=
    (mem_stridedRange hblock).mpr ⟨by omega, (xSize - 1) / biasBlockSize,
      (Nat.mod_add_div _ _).symm⟩
  obtain ⟨_, _, hrow⟩ := Outcome.ok_of_foldlM hacc hlastRow
  obtain ⟨_, hinner, hrest⟩ := Outcome.bind_eq_ok.mp hrow
  obtain ⟨_, hnextY, -⟩ := Outcome.bind_eq_ok.mp hrest
  obtain ⟨_, _, hsample⟩ := Outcome.ok_of_foldlM hinner hlast
  simp only [Outcome.bind_eq_ok, index32_eq_ok] at hsample hnextY
  obtain ⟨_, ⟨hidx, -⟩, _, ⟨hnextX, -⟩, -⟩ := hsample
  have hsize : xSize * ySize = (ySize - 1) * xSize + xSize := by
    rw [← Nat.succ_mul, Nat.succ_eq_add_one, Nat.sub_add_cancel hy, Nat.mul_comm]
  unfold biasBlockSize at hnextX
  omega

/-- The threads go through the image once. -/
theorem sum_stridedSums {yStep : Nat} (hpos : 0 < yStep) :
    ∑ yStart ∈ Finset.range yStep, ∑ xStart ∈ Finset.range biasBlockSize,
      stridedSums data xSize ySize xStart yStart yStep = imageSums data xSize ySize := by
  have hrows (xStart : Nat) : ∑ yStart ∈ Finset.range yStep,
      stridedSums data xSize ySize xStart yStart yStep =
        ∑ y ∈ Finset.range ySize, ((stridedRange xStart xSize biasBlockSize).map fun x =>
          sampleWeight (data (y * xSize + x))).sum :=
    sum_stridedRange hpos ySize _
  rw [Finset.sum_comm, Finset.sum_congr rfl fun xStart _ => hrows xStart, Finset.sum_comm]
  exact Finset.sum_congr rfl fun y _ => sum_stridedRange (by decide) xSize _

end Thread

/-! ## The launch -/

/-- The sum that is kept in a cell. -/
def sumsComponent : Nat → Nat × Nat × Nat →+ Nat
  | 0 => AddMonoidHom.fst Nat (Nat × Nat)
  | 1 => (AddMonoidHom.fst Nat Nat).comp (AddMonoidHom.snd Nat (Nat × Nat))
  | _ => (AddMonoidHom.snd Nat Nat).comp (AddMonoidHom.snd Nat (Nat × Nat))

/-- What the threads add to a cell. -/
def wrappedSum (data : Nat → Iq8) (xSize ySize yStep cell : Nat) : Nat :=
  ∑ yStart ∈ Finset.range yStep, ∑ xStart ∈ Finset.range biasBlockSize,
    sumsComponent cell (stridedSums data xSize ySize xStart yStart yStep) % 2 ^ 32

section Launch

variable {data : Nat → Iq8} {xSize ySize : Nat}

theorem reduceSumRawIqData_eq {grid : Dim3} (hvalid : grid.Valid)
    (hindex : xSize * ySize ≤ 2147483648) (hnextX : xSize + 1024 ≤ 2147483648)
    (hnextY : ySize + grid.y ≤ 2147483648) (t : ThreadStep) :
    reduceSumRawIqData data xSize ySize grid t =
      .ok (t.phase, sumsComponent t.phase
        (stridedSums data xSize ySize t.threadX t.blockY grid.y) % 2 ^ 32) := by
  rw [reduceSumRawIqData, sumRawIqData_eq hvalid.2.1 hindex hnextX hnextY, Outcome.ok_bind]
  match t.phase with
  | 0 => rfl
  | 1 => rfl
  | _ + 2 => rfl

/-- The cells have 64 bits, which the threads of a grid do not exceed. -/
theorem wrappedSum_lt {yStep : Nat} (h : yStep ≤ 65535) (cell : Nat) :
    wrappedSum data xSize ySize yStep cell < 2 ^ 64 := by
  have hthread (yStart xStart : Nat) :
      sumsComponent cell (stridedSums data xSize ySize xStart yStart yStep) % 2 ^ 32 ≤ 2 ^ 32 :=
    (Nat.mod_lt _ (Nat.two_pow_pos 32)).le
  have hrow (yStart : Nat) : ∑ xStart ∈ Finset.range biasBlockSize,
      sumsComponent cell (stridedSums data xSize ySize xStart yStart yStep) % 2 ^ 32 ≤
        biasBlockSize * 2 ^ 32 := by
    have hsum := Finset.sum_le_card_nsmul (Finset.range biasBlockSize) _ _
      fun xStart _ => hthread yStart xStart
    rwa [Finset.card_range, smul_eq_mul] at hsum
  have htotal := Finset.sum_le_card_nsmul (Finset.range yStep) _ _ fun yStart _ => hrow yStart
  rw [Finset.card_range, smul_eq_mul] at htotal
  calc wrappedSum data xSize ySize yStep cell
    _ ≤ yStep * (biasBlockSize * 2 ^ 32) := htotal
    _ ≤ 65535 * (biasBlockSize * 2 ^ 32) := Nat.mul_le_mul_right _ h
    _ < 2 ^ 64 := by decide

/-- A cell ends with what the threads add to it. -/
theorem exists_launchSumRawIqData (s : AtomicOrder) {yStep : Nat}
    (hvalid : (⟨1, yStep⟩ : Dim3).Valid) (hindex : xSize * ySize ≤ 2147483648)
    (hnextX : xSize + 1024 ≤ 2147483648) (hnextY : ySize + yStep ≤ 2147483648) :
    ∃ result, launchAtomicAdds s ⟨1, yStep⟩ ⟨biasBlockSize, 1⟩ 3 64
        (reduceSumRawIqData data xSize ySize ⟨1, yStep⟩) (fun _ => 0) = .ok result ∧
      ∀ cell < 3, result cell = wrappedSum data xSize ySize yStep cell := by
  have hkernel : ∀ t ∈ threadSteps ⟨1, yStep⟩ ⟨biasBlockSize, 1⟩ 3,
      reduceSumRawIqData data xSize ySize ⟨1, yStep⟩ t = .ok (t.phase,
        sumsComponent t.phase (stridedSums data xSize ySize t.threadX t.blockY yStep) % 2 ^ 32) :=
    fun t _ => reduceSumRawIqData_eq hvalid hindex hnextX hnextY t
  obtain ⟨result, hrun, hcells⟩ := exists_launchAtomicAdds s ⟨biasBlockSize, 1⟩ 3 64 hvalid _ _
    hkernel fun _ => 0
  refine ⟨result, hrun, fun cell hcell => ?_⟩
  have hsum : ∀ blockY ∈ Finset.range yStep,
      ∑ blockX ∈ Finset.range 1, ∑ threadY ∈ Finset.range 1,
        ∑ threadX ∈ Finset.range biasBlockSize,
          sumsComponent cell (stridedSums data xSize ySize threadX blockY yStep) % 2 ^ 32 =
      ∑ threadX ∈ Finset.range biasBlockSize,
        sumsComponent cell (stridedSums data xSize ySize threadX blockY yStep) % 2 ^ 32 := by
    intro blockY _
    rw [Finset.sum_range_one, Finset.sum_range_one]
  rw [hcells cell (Nat.two_pow_pos 64), filter_threadSteps _ _ hcell, Nat.zero_add, sum_phaseSteps,
    Finset.sum_congr rfl hsum]
  exact Nat.mod_eq_of_lt (wrappedSum_lt hvalid.2.2 cell)

theorem wrappedSum_eq_iff {yStep : Nat} (hpos : 0 < yStep) (cell : Nat) :
    wrappedSum data xSize ySize yStep cell = sumsComponent cell (imageSums data xSize ySize) ↔
      ∀ yStart < yStep, ∀ xStart < biasBlockSize,
        sumsComponent cell (stridedSums data xSize ySize xStart yStart yStep) < 2 ^ 32 := by
  rw [← sum_stridedSums hpos, map_sum,
    Finset.sum_congr rfl fun yStart _ => map_sum (sumsComponent cell) _ _, wrappedSum,
    sum_mod_eq_iff _ _ _ (Nat.two_pow_pos 32)]
  simp only [Finset.mem_range]

/-- There are no more samples than elements. -/
theorem count_imageSums_le : (imageSums data xSize ySize).2.2 ≤ xSize * ySize := by
  show sumsComponent 2 (imageSums data xSize ySize) ≤ xSize * ySize
  have hsample (sample : Iq8) : sumsComponent 2 (sampleWeight sample) ≤ 1 := by
    unfold sampleWeight
    split
    · exact Nat.zero_le 1
    · exact le_refl 1
  have hrow (y : Nat) :
      sumsComponent 2 (∑ x ∈ Finset.range xSize, sampleWeight (data (y * xSize + x))) ≤ xSize := by
    rw [map_sum]
    have hsum := Finset.sum_le_card_nsmul (Finset.range xSize) _ 1
      fun x _ => hsample (data (y * xSize + x))
    rwa [Finset.card_range, smul_eq_mul, Nat.mul_one] at hsum
  rw [imageSums, map_sum]
  have hsum := Finset.sum_le_card_nsmul (Finset.range ySize) _ xSize fun y _ => hrow y
  rwa [Finset.card_range, smul_eq_mul, Nat.mul_comm] at hsum

/-- The numbers of samples of the threads do not wrap. -/
theorem wrappedSum_count {yStep : Nat} (hpos : 0 < yStep) (hindex : xSize * ySize ≤ 2147483648) :
    wrappedSum data xSize ySize yStep 2 = (imageSums data xSize ySize).2.2 := by
  apply (wrappedSum_eq_iff hpos 2).mpr
  intro yStart hy xStart hx
  calc sumsComponent 2 (stridedSums data xSize ySize xStart yStart yStep)
    _ ≤ sumsComponent 2 (imageSums data xSize ySize) := by
      rw [← sum_stridedSums hpos, map_sum]
      refine le_trans ?_ (Finset.single_le_sum (fun _ _ => Nat.zero_le _)
        (Finset.mem_range.mpr hy))
      rw [map_sum]
      exact Finset.single_le_sum (f := fun xStart =>
        sumsComponent 2 (stridedSums data xSize ySize xStart yStart yStep))
        (fun _ _ => Nat.zero_le _) (Finset.mem_range.mpr hx)
    _ ≤ 2147483648 := count_imageSums_le.trans hindex
    _ < 2 ^ 32 := by decide

end Launch

/-! ## The results -/

section Results

/-- An `int` holds the count up to its greatest value. -/
theorem intOfUnsigned_of_lt {n : Nat} (h : n < 2147483648) : intOfUnsigned n = n := by
  unfold intOfUnsigned
  omega

/-- A count that comes back as an unsigned number was held by the `int`. -/
theorem lt_of_intOfUnsigned {n : Nat} (hn : n < 2 ^ 63)
    (h : (intOfUnsigned n % 2 ^ 64).toNat = n) : n < 2147483648 := by
  unfold intOfUnsigned at h
  omega

theorem intOfUnsigned_eq_zero {n : Nat} (h : (intOfUnsigned n % 2 ^ 64).toNat = 0) :
    intOfUnsigned n = 0 := by
  unfold intOfUnsigned at h ⊢
  omega

variable {s : AtomicOrder} {data : Nat → Iq8} {img : ImgFormat} {multiprocessorCount : Nat}

/-- What is made of the cells. -/
def biasResults (hResult : Nat → Nat) : BiasResults :=
  ⟨(intOfUnsigned (hResult 2) % 2 ^ 64).toNat,
    biasQuotient (hResult 0) (intOfUnsigned (hResult 2)),
    biasQuotient (hResult 1) (intOfUnsigned (hResult 2))⟩

@[simp]
theorem totalSamples_biasResults (hResult : Nat → Nat) :
    (biasResults hResult).totalSamples = (intOfUnsigned (hResult 2) % 2 ^ 64).toNat := by
  rw [biasResults]

@[simp]
theorem dcI_biasResults (hResult : Nat → Nat) :
    (biasResults hResult).dcI = biasQuotient (hResult 0) (intOfUnsigned (hResult 2)) := by
  rw [biasResults]

@[simp]
theorem dcQ_biasResults (hResult : Nat → Nat) :
    (biasResults hResult).dcQ = biasQuotient (hResult 1) (intOfUnsigned (hResult 2)) := by
  rw [biasResults]

theorem calculateDcBias_eq_ok {results : BiasResults} :
    calculateDcBias s data img multiprocessorCount = .ok results ↔
      ∃ hResult, launchAtomicAdds s (biasGridSize multiprocessorCount) ⟨biasBlockSize, 1⟩ 3 64
        (reduceSumRawIqData data img.rangeSize img.azimuthSize (biasGridSize multiprocessorCount))
        (fun _ => 0) = .ok hResult ∧ biasResults hResult = results := by
  simp only [calculateDcBias, Outcome.bind_eq_ok, Outcome.pure_eq, Outcome.ok.injEq]
  rfl

/-- Without samples the quotients are no numbers, and so a mean is one of samples. -/
theorem IsMean.pos {hResult : Nat → Nat} (h : IsMean data img (biasResults hResult)) :
    0 < (imageSums data img.rangeSize img.azimuthSize).2.2 := by
  apply Nat.pos_of_ne_zero
  intro hnone
  have hcount := h.samples.trans hnone
  rw [totalSamples_biasResults] at hcount
  apply (h.noSamples hnone).1
  rw [dcI_biasResults, intOfUnsigned_eq_zero hcount]
  rfl

/-- The device has taken the grid, since there is a sample. -/
theorem IsMean.grid {hResult : Nat → Nat}
    (hrun : launchAtomicAdds s (biasGridSize multiprocessorCount) ⟨biasBlockSize, 1⟩ 3 64
      (reduceSumRawIqData data img.rangeSize img.azimuthSize (biasGridSize multiprocessorCount))
      (fun _ => 0) = .ok hResult)
    (h : IsMean data img (biasResults hResult)) : (biasGridSize multiprocessorCount).Valid := by
  by_contra hvalid
  rw [launchAtomicAdds, if_neg hvalid] at hrun
  cases hrun
  have hpos := h.pos
  have hzero : (biasResults fun _ => 0).totalSamples = 0 := by decide
  have hsamples := h.samples
  omega

theorem biasQuotient_of_pos {n : Nat} (h : 0 < n) (sum : Nat) :
    biasQuotient sum n = some ((sum : ℚ) / n) := by
  rw [biasQuotient, if_neg (by omega), Int.cast_natCast]

theorem div_left_inj {n : Nat} (h : 0 < n) {a b : Nat} :
    (a : ℚ) / n = (b : ℚ) / n ↔ a = b := by
  have hn : (n : ℚ) ≠ 0 := Nat.cast_ne_zero.mpr h.ne'
  rw [div_left_inj' hn, Nat.cast_inj]

/-- The mean is what comes back of cells that hold the sums, and of no others, where the `int` holds
the count. -/
theorem isMean_iff {hResult : Nat → Nat} (hsize : hResult 2 < 2 ^ 63)
    (hcount : hResult 2 = (imageSums data img.rangeSize img.azimuthSize).2.2)
    (hpos : 0 < hResult 2) :
    IsMean data img (biasResults hResult) ↔ hResult 2 < 2147483648 ∧
      hResult 0 = (imageSums data img.rangeSize img.azimuthSize).1 ∧
      hResult 1 = (imageSums data img.rangeSize img.azimuthSize).2.1 := by
  constructor
  · intro h
    have hsamples := h.samples.trans hcount.symm
    rw [totalSamples_biasResults] at hsamples
    have hless := lt_of_intOfUnsigned hsize hsamples
    obtain ⟨hI, hQ⟩ := h.mean (hcount ▸ hpos)
    rw [dcI_biasResults, intOfUnsigned_of_lt hless, biasQuotient_of_pos hpos, Option.some_inj,
      ← hcount, div_left_inj hpos] at hI
    rw [dcQ_biasResults, intOfUnsigned_of_lt hless, biasQuotient_of_pos hpos, Option.some_inj,
      ← hcount, div_left_inj hpos] at hQ
    exact ⟨hless, hI, hQ⟩
  · intro ⟨hless, hI, hQ⟩
    have hint := intOfUnsigned_of_lt hless
    refine ⟨?_, fun _ => ⟨?_, ?_⟩, fun hnone => ?_⟩
    · rw [totalSamples_biasResults, hint, ← hcount]
      omega
    · rw [dcI_biasResults, hint, biasQuotient_of_pos hpos, hI, hcount]
    · rw [dcQ_biasResults, hint, biasQuotient_of_pos hpos, hQ, hcount]
    · omega

end Results

/-! ## The mean, exactly -/

section Mean

variable {s : AtomicOrder} {data : Nat → Iq8} {img : ImgFormat} {multiprocessorCount : Nat}

theorem SumsFit.calculatesMean (h : SumsFit data img multiprocessorCount) (s : AtomicOrder) :
    CalculatesMean s data img multiprocessorCount := by
  obtain ⟨hResult, hrun, hcells⟩ := exists_launchSumRawIqData s h.grid h.index h.nextX h.nextY
  have hcount : hResult 2 = (imageSums data img.rangeSize img.azimuthSize).2.2 :=
    (hcells 2 (by decide)).trans (wrappedSum_count h.grid.2.1 h.index)
  have hless : hResult 2 < 2147483648 := hcount ▸ h.count
  refine ⟨_, calculateDcBias_eq_ok.mpr ⟨hResult, hrun, rfl⟩, ?_⟩
  apply (isMean_iff (by omega) hcount (hcount ▸ h.valid)).mpr
  refine ⟨hless, ?_, ?_⟩
  · rw [hcells 0 (by decide)]
    exact (wrappedSum_eq_iff h.grid.2.1 0).mpr fun yStart hy xStart hx =>
      (h.sums xStart hx yStart hy).1
  · rw [hcells 1 (by decide)]
    exact (wrappedSum_eq_iff h.grid.2.1 1).mpr fun yStart hy xStart hx =>
      (h.sums xStart hx yStart hy).2

theorem CalculatesMean.sumsFit (h : CalculatesMean s data img multiprocessorCount) :
    SumsFit data img multiprocessorCount := by
  obtain ⟨results, hreturned, hmean⟩ := h
  obtain ⟨hResult, hrun, rfl⟩ := calculateDcBias_eq_ok.mp hreturned
  have hpos := hmean.pos
  have hvalid := hmean.grid hrun
  have hsize : 0 < img.rangeSize * img.azimuthSize := hpos.trans_le count_imageSums_le
  -- every thread has gone through its samples
  have hthreads : ∀ xStart < biasBlockSize, ∀ yStart < (biasGridSize multiprocessorCount).y,
      ∃ acc, sumRawIqData data img.rangeSize img.azimuthSize xStart yStart
        (biasGridSize multiprocessorCount).y = .ok acc := by
    intro xStart hx yStart hy
    obtain ⟨_, hthread⟩ := ok_of_launchAtomicAdds hrun hvalid (t := ⟨0, 0, yStart, xStart, 0⟩)
      (mem_threadSteps.mpr ⟨Nat.zero_lt_succ 2, ⟨Nat.one_pos, hy⟩, hx, Nat.one_pos⟩)
    obtain ⟨acc, hacc, -⟩ := Outcome.bind_eq_ok.mp hthread
    exact ⟨acc, hacc⟩
  obtain ⟨hindex, hnextX, hnextY⟩ := fits_of_sumRawIqData hvalid.2.1
    (Nat.pos_of_mul_pos_right hsize) (Nat.pos_of_mul_pos_left hsize) hthreads
  obtain ⟨hResult', hrun', hcells⟩ := exists_launchSumRawIqData s hvalid hindex hnextX hnextY
  cases hrun.symm.trans hrun'
  have hcount : hResult 2 = (imageSums data img.rangeSize img.azimuthSize).2.2 :=
    (hcells 2 (by decide)).trans (wrappedSum_count hvalid.2.1 hindex)
  have hbound : hResult 2 ≤ 2147483648 := hcount ▸ count_imageSums_le.trans hindex
  -- the count is exact, so the mean fixes the other two sums
  obtain ⟨hless, hI, hQ⟩ := (isMean_iff (by omega) hcount (hcount ▸ hpos)).mp hmean
  have hsumI := (wrappedSum_eq_iff hvalid.2.1 0).mp ((hcells 0 (by decide)).symm.trans hI)
  have hsumQ := (wrappedSum_eq_iff hvalid.2.1 1).mp ((hcells 1 (by decide)).symm.trans hQ)
  exact {
    valid := hpos
    grid := hvalid
    index := hindex
    nextX := hnextX
    nextY := hnextY
    count := hcount ▸ hless
    sums := fun xStart hx yStart hy => ⟨hsumI yStart hy xStart hx, hsumQ yStart hy xStart hx⟩ }

end Mean

/-- The mean is calculated exactly where there is a sample and nothing wraps: neither the indices
and the count in an `int`, nor the sums of a thread in 32 bits. -/
theorem calculatesMean_iff (s : AtomicOrder) (data : Nat → Iq8) (img : ImgFormat)
    (multiprocessorCount : Nat) :
    CalculatesMean s data img multiprocessorCount ↔ SumsFit data img multiprocessorCount :=
  ⟨CalculatesMean.sumsFit, fun h => h.calculatesMean s⟩

/-- The sums over an image of one column and one value. -/
theorem imageSums_column (sample : Iq8) (ySize : Nat) :
    imageSums (fun _ => sample) 1 ySize = ySize • sampleWeight sample := by
  rw [imageSums, Finset.sum_const, Finset.card_range, Finset.sum_range_one]

theorem stridedSums_column (sample : Iq8) (ySize yStep : Nat) :
    stridedSums (fun _ => sample) 1 ySize 0 0 yStep =
      ((ySize + yStep - 1) / yStep) • sampleWeight sample := by
  have hrow : stridedRange 0 1 biasBlockSize = [0] := rfl
  rw [stridedSums, hrow, List.map_const', List.sum_replicate, List.map_singleton,
    List.sum_singleton, stridedRange, List.length_range', Nat.sub_zero]

/-- A column of the greatest numbers, half of which one of two blocks adds up in 32 bits. -/
theorem not_calculatesMean_wraps : ¬ ∀ s data img multiprocessorCount,
    0 < (imageSums data img.rangeSize img.azimuthSize).2.2 →
      CalculatesMean s data img multiprocessorCount := by
  intro hall
  have hweight : sampleWeight ⟨0xFF, 0⟩ = (255, 0, 1) := by decide
  obtain ⟨img, hx, hy⟩ : ∃ img : ImgFormat, img.rangeSize = 1 ∧ img.azimuthSize = 67108864 :=
    ⟨⟨1, 67108864, 0, 2, rfl⟩, rfl, rfl⟩
  have hpos : 0 < (imageSums (fun _ => ⟨0xFF, 0⟩) img.rangeSize img.azimuthSize).2.2 := by
    simp only [hx, hy, imageSums_column, hweight, Prod.smul_snd, smul_eq_mul]
    omega
  have hfits := (hall ⟨id, fun _ => .refl _⟩ (fun _ => ⟨0xFF, 0⟩) img 1 hpos).sumsFit
  have hthread := (hfits.sums 0 (by decide) 0 (by decide)).1
  have hgrid : (biasGridSize 1).y = 2 := by decide
  simp only [hx, hy, hgrid, stridedSums_column, hweight, Prod.smul_fst, smul_eq_mul] at hthread
  omega

end Alus.PalsarFocus
