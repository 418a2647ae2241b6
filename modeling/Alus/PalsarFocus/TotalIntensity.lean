import Alus.PalsarFocus.DevicePaddedImage

/-!
# The total intensity

`CalcTotalIntensity` (`palsar-focus/src/device_padded_image.cu`) adds up the intensity of an image.
The threads of a block add up their columns, the block reduces these sums in shared memory, and the
host adds the results of the blocks. Addition is that of a commutative ring, so nothing is rounded.

A cell that nothing has been written to is `none`, and so is what is computed from it.
-/

namespace Alus.PalsarFocus

open Alus.Lib

variable {F : Type} [Field F]

/-- `REDUCE_BLOCK_SIZE`. -/
def reduceBlockSize : Nat := 1024

/-- A cell of the sums in shared memory, or of the results of the blocks. -/
inductive IntensityCell where
  | sharedAcc (blockX blockY thread : Nat)
  | result (index : Nat)
  deriving DecidableEq, Repr

/-- What a thread adds up: every 1024th column of every `yStep`th row. -/
def accumulate (data : Nat → CufftComplex F) (xSize ySize xStride xStart yStart yStep : Nat) :
    Outcome F :=
  (stridedRange yStart ySize yStep).foldlM (fun acc y => do
    let innerAcc ← (stridedRange xStart xSize reduceBlockSize).foldlM (fun innerAcc x => do
      let idx ← index32 (y * xStride + x)
      -- `x += x_step`
      let _ ← index32 (x + reduceBlockSize)
      return innerAcc + intensity (data idx)) 0
    return acc + innerAcc) 0

/-- `ReduceIntensity`: the first phase adds up, the next ten halve the number of sums, and the
last writes the result of the block. -/
def reduceIntensity (data : Nat → CufftComplex F) (xSize ySize xStride : Nat) (grid : Dim3)
    (t : ThreadStep) (m : IntensityCell → Option F) :
    Outcome (Option (IntensityCell × Option F)) :=
  let sharedAcc := IntensityCell.sharedAcc t.blockX t.blockY
  if t.phase = 0 then do
    let acc ← accumulate data xSize ySize xStride t.threadX t.blockY grid.y
    return some (sharedAcc t.threadX, some acc)
  else if t.phase ≤ 10 then
    let s := reduceBlockSize / 2 ^ t.phase
    if t.threadX < s then
      return some (sharedAcc t.threadX,
        Option.map₂ (· + ·) (m (sharedAcc t.threadX)) (m (sharedAcc (t.threadX + s))))
    else return none
  else if t.threadX = 0 then
    return some (.result t.blockY, m (sharedAcc 0))
  else return none

/-- `CalcTotalIntensity`. The grid is one-dimensional, and takes the count as an `unsigned int`. -/
def calcTotalIntensity (s : Scheduler) (img : DevicePaddedImage F) (smCount : Nat) :
    Outcome (Option F) := do
  let grid : Dim3 := ⟨smCount % 2 ^ 32, 1⟩
  let m ← launchSteps s grid ⟨reduceBlockSize, 1⟩ 12
    (reduceIntensity img.data img.xSize img.ySize img.xStride grid) fun _ => none
  return (List.range smCount).foldl
    (fun sum k => Option.map₂ (· + ·) sum (m (.result k))) (some 0)

/-- The sum over the logical area. -/
def totalIntensity (img : DevicePaddedImage F) : F :=
  ∑ y ∈ Finset.range img.ySize, ∑ x ∈ Finset.range img.xSize,
    intensity (img.data (y * img.xStride + x))

/-- Whatever the image holds, the result is its total intensity, computed from nothing that was
not written. -/
def TotalsIntensity (s : Scheduler) (img : DevicePaddedImage F) (smCount : Nat) : Prop :=
  ∀ memory, calcTotalIntensity s (img.withData memory) smCount =
    .ok (some (totalIntensity (img.withData memory)))

/-- There is one block and the indices of the image fit, or no block and no image. -/
def OneBlock (img : DevicePaddedImage F) (smCount : Nat) : Prop :=
  (smCount = 1 ∧ (img.xSize = 0 ∨ img.ySize = 0 ∨
      ((img.ySize - 1) * img.xStride + img.xSize ≤ 2147483648 ∧ img.xSize ≤ 2147482624))) ∨
    (smCount = 0 ∧ (img.xSize = 0 ∨ img.ySize = 0))

/-! ## One block -/

section Block

variable {s : Scheduler} {data : Nat → CufftComplex F} {xSize ySize xStride : Nat}

/-- What a thread adds up when all indices fit. -/
def columnSum (data : Nat → CufftComplex F) (xSize ySize xStride xStart : Nat) : F :=
  ∑ y ∈ Finset.range ySize,
    ((stridedRange xStart xSize reduceBlockSize).map fun x =>
      intensity (data (y * xStride + x))).sum

theorem accumulate_eq (hfits : ∀ x < xSize, ∀ y < ySize,
      y * xStride + x < 2147483648 ∧ x + reduceBlockSize < 2147483648) (xStart : Nat) :
    accumulate data xSize ySize xStride xStart 0 1 =
      .ok (columnSum data xSize ySize xStride xStart) := by
  have hpos : 0 < reduceBlockSize := by decide
  let rowSum : Nat → F := fun y => ((stridedRange xStart xSize reduceBlockSize).map fun x =>
    intensity (data (y * xStride + x))).sum
  have hrow : ∀ y ∈ stridedRange 0 ySize 1, ∀ acc : F, (do
      let innerAcc ← (stridedRange xStart xSize reduceBlockSize).foldlM (fun innerAcc x => do
        let idx ← index32 (y * xStride + x)
        let _ ← index32 (x + reduceBlockSize)
        return innerAcc + intensity (data idx)) 0
      return acc + innerAcc : Outcome F) = .ok (acc + rowSum y) := by
    intro y hy acc
    have hylt := ((mem_stridedRange Nat.one_pos).mp hy).1
    have hsample : ∀ x ∈ stridedRange xStart xSize reduceBlockSize, ∀ innerAcc : F, (do
        let idx ← index32 (y * xStride + x)
        let _ ← index32 (x + reduceBlockSize)
        return innerAcc + intensity (data idx) : Outcome F) =
          .ok (innerAcc + intensity (data (y * xStride + x))) := by
      intro x hx innerAcc
      obtain ⟨hidx, hnext⟩ := hfits x ((mem_stridedRange hpos).mp hx).1 y hylt
      rw [index32_of_lt hidx, index32_of_lt hnext]
      rfl
    rw [Outcome.foldlM_eq_ok hsample, foldl_add_map, zero_add]
    rfl
  -- with a step of one, the strided rows are all the rows
  have hrows := sum_stridedRange Nat.one_pos ySize rowSum
  rw [Finset.sum_range_one] at hrows
  rw [accumulate, Outcome.foldlM_eq_ok hrow, foldl_add_map, zero_add, hrows]
  rfl

/-- The threads of the block add up everything once. -/
theorem sum_columnSum (data : Nat → CufftComplex F) (xSize ySize xStride : Nat) :
    ∑ t ∈ Finset.range reduceBlockSize, columnSum data xSize ySize xStride t =
      ∑ y ∈ Finset.range ySize, ∑ x ∈ Finset.range xSize,
        intensity (data (y * xStride + x)) := by
  simp only [columnSum]
  rw [Finset.sum_comm]
  exact Finset.sum_congr rfl fun y _ =>
    sum_stridedRange (by decide) xSize fun x => intensity (data (y * xStride + x))

/-- The thread stores a sum in this phase. -/
def ReduceActive (t : ThreadStep) : Prop :=
  t.phase = 0 ∨ (t.phase ≤ 10 ∧ t.threadX < reduceBlockSize / 2 ^ t.phase) ∨
    (10 < t.phase ∧ t.threadX = 0)

instance : DecidablePred ReduceActive := fun t => by
  unfold ReduceActive
  infer_instance

def reduceAddr (t : ThreadStep) : IntensityCell :=
  if t.phase ≤ 10 then .sharedAcc t.blockX t.blockY t.threadX else .result t.blockY

def reduceVal (data : Nat → CufftComplex F) (xSize ySize xStride : Nat) (t : ThreadStep)
    (m : IntensityCell → Option F) : Option F :=
  if t.phase = 0 then some (columnSum data xSize ySize xStride t.threadX)
  else if t.phase ≤ 10 then
    Option.map₂ (· + ·) (m (.sharedAcc t.blockX t.blockY t.threadX))
      (m (.sharedAcc t.blockX t.blockY (t.threadX + reduceBlockSize / 2 ^ t.phase)))
  else m (.sharedAcc t.blockX t.blockY 0)

/-- The grid of one block. -/
def oneBlockGrid : Dim3 := ⟨1, 1⟩

theorem oneBlockGrid_valid : oneBlockGrid.Valid := by decide

variable (data) in
theorem reduceIntensity_eq (hfits : ∀ x < xSize, ∀ y < ySize,
      y * xStride + x < 2147483648 ∧ x + reduceBlockSize < 2147483648) {t : ThreadStep}
    (ht : t ∈ threadSteps oneBlockGrid ⟨reduceBlockSize, 1⟩ 12) (m : IntensityCell → Option F) :
    reduceIntensity data xSize ySize xStride oneBlockGrid t m = .ok (if ReduceActive t then
      some (reduceAddr t, reduceVal data xSize ySize xStride t m) else none) := by
  obtain ⟨-, ⟨-, hblockY⟩, -⟩ := mem_threadSteps.mp ht
  have hblockY : t.blockY = 0 := Nat.lt_one_iff.mp hblockY
  simp only [reduceIntensity, ReduceActive, reduceAddr, reduceVal]
  by_cases h0 : t.phase = 0
  · simp only [hblockY, h0, true_or, if_true, Nat.zero_le]
    rw [show oneBlockGrid.y = 1 from rfl, accumulate_eq hfits]
    rfl
  · by_cases h10 : t.phase ≤ 10
    · have hnot : ¬ 10 < t.phase := not_lt.mpr h10
      simp only [h0, h10, hnot, if_true, if_false, false_or, true_and, false_and, or_false]
      split <;> rfl
    · have hlt : 10 < t.phase := not_le.mp h10
      simp only [h0, h10, hlt, if_false, false_or, true_and, false_and]
      split <;> rfl

/-- In one block, the steps of a phase have their own cells and do not read each other's: a round
writes the lower half of the sums, and adds the upper half to it. -/
theorem reduce_unread {t t' : ThreadStep}
    (ht : t ∈ threadSteps oneBlockGrid ⟨reduceBlockSize, 1⟩ 12)
    (ht' : t' ∈ threadSteps oneBlockGrid ⟨reduceBlockSize, 1⟩ 12) (hne : t ≠ t')
    (hphase : t.blockX = t'.blockX ∧ t.blockY = t'.blockY → t.phase = t'.phase) :
    Unread ReduceActive reduceAddr (reduceVal data xSize ySize xStride) t t' := by
  intro hact hact'
  obtain ⟨-, hblock, hx, hy⟩ := mem_threadSteps.mp ht
  obtain ⟨-, hblock', hx', hy'⟩ := mem_threadSteps.mp ht'
  obtain ⟨phase, blockX, blockY, threadX, threadY⟩ := t
  obtain ⟨phase', blockX', blockY', threadX', threadY'⟩ := t'
  simp only [oneBlockGrid] at hblock hblock' hy hy' hphase
  -- there is only one block, so the barrier orders every two phases
  obtain rfl : phase = phase' := hphase ⟨by omega, by omega⟩
  have hthread : threadX ≠ threadX' := by
    rintro rfl
    exact hne (by rw [ThreadStep.mk.injEq]; omega)
  simp only [ReduceActive] at hact hact'
  simp only [reduceAddr, reduceVal, ne_eq]
  by_cases h10 : phase ≤ 10
  · simp only [if_pos h10, IntensityCell.sharedAcc.injEq]
    refine ⟨fun h => hthread h.2.2, fun m a => ?_⟩
    by_cases h0 : phase = 0
    · simp only [if_pos h0]
    -- the other thread stores below the half, and only this one reads its own cell
    · simp only [if_neg h0]
      rw [Function.update_of_ne, Function.update_of_ne]
      · rw [ne_eq, IntensityCell.sharedAcc.injEq]
        omega
      · rw [ne_eq, IntensityCell.sharedAcc.injEq]
        exact fun h => hthread h.2.2
  · omega

/-- The memory after the given number of phases, phase by phase. -/
def reduceMemory (data : Nat → CufftComplex F) (xSize ySize xStride phases : Nat) :
    IntensityCell → Option F :=
  (threadSteps oneBlockGrid ⟨reduceBlockSize, 1⟩ phases).foldl
    (storeStep ReduceActive reduceAddr (reduceVal data xSize ySize xStride)) fun _ => none

variable (data xSize ySize xStride) in
/-- What one phase stores. -/
theorem reduceMemory_succ {phase thread : Nat} (hphase : phase < 12)
    (hthread : thread < reduceBlockSize) (hact : ReduceActive ⟨phase, 0, 0, thread, 0⟩) :
    reduceMemory data xSize ySize xStride (phase + 1) (reduceAddr ⟨phase, 0, 0, thread, 0⟩) =
      reduceVal data xSize ySize xStride ⟨phase, 0, 0, thread, 0⟩
        (reduceMemory data xSize ySize xStride phase) := by
  have ht : (⟨phase, 0, 0, thread, 0⟩ : ThreadStep) ∈
      phaseSteps oneBlockGrid ⟨reduceBlockSize, 1⟩ phase :=
    mem_phaseSteps.mpr ⟨rfl, ⟨Nat.one_pos, Nat.one_pos⟩, hthread, Nat.one_pos⟩
  rw [reduceMemory, threadSteps_succ, List.foldl_append]
  refine (foldl_storeStep (nodup_phaseSteps _ _ phase) (fun u hu u' hu' hne => ?_) _).1 _ ht hact
  obtain ⟨hp, hu⟩ := mem_phaseSteps.mp hu
  obtain ⟨hp', hu'⟩ := mem_phaseSteps.mp hu'
  exact reduce_unread (mem_threadSteps.mpr ⟨by omega, hu⟩) (mem_threadSteps.mpr ⟨by omega, hu'⟩)
    hne fun _ => by omega

/-- Each round keeps the sum, and halves the number of cells that it is spread over. -/
theorem exists_partialSums (data : Nat → CufftComplex F) (xSize ySize xStride : Nat) {phase : Nat}
    (hphase : phase ≤ 10) : ∃ sums : Nat → F,
      (∀ thread < reduceBlockSize / 2 ^ phase,
        reduceMemory data xSize ySize xStride (phase + 1) (.sharedAcc 0 0 thread) =
          some (sums thread)) ∧
      ∑ thread ∈ Finset.range (reduceBlockSize / 2 ^ phase), sums thread =
        ∑ y ∈ Finset.range ySize, ∑ x ∈ Finset.range xSize,
          intensity (data (y * xStride + x)) := by
  induction phase with
  | zero =>
    refine ⟨columnSum data xSize ySize xStride, fun thread hthread => ?_, ?_⟩
    · rw [Nat.pow_zero, Nat.div_one] at hthread
      exact reduceMemory_succ _ _ _ _ (by omega) hthread (.inl rfl)
    · rw [Nat.pow_zero, Nat.div_one]
      exact sum_columnSum data xSize ySize xStride
  | succ phase ih =>
    obtain ⟨sums, hcells, htotal⟩ := ih (by omega)
    -- the block size is a power of two, so no cell is left over in a round
    have hhalf : reduceBlockSize / 2 ^ phase =
        reduceBlockSize / 2 ^ (phase + 1) + reduceBlockSize / 2 ^ (phase + 1) :=
      (by decide : ∀ p < 10, reduceBlockSize / 2 ^ p =
        reduceBlockSize / 2 ^ (p + 1) + reduceBlockSize / 2 ^ (p + 1)) phase (by omega)
    rw [hhalf] at hcells htotal
    refine ⟨fun thread => sums thread + sums (thread + reduceBlockSize / 2 ^ (phase + 1)),
      fun thread hthread => ?_, ?_⟩
    · have hle : thread < reduceBlockSize := hthread.trans_le (Nat.div_le_self _ _)
      have hstored := reduceMemory_succ data xSize ySize xStride (by omega) hle
        (.inr (.inl ⟨hphase, hthread⟩))
      simp only [reduceAddr, reduceVal, if_pos hphase, Nat.succ_ne_zero, if_false] at hstored
      rw [hstored, hcells thread (by omega), hcells _ (by omega)]
      rfl
    · rw [sum_halves, htotal]

theorem calcTotalIntensity_one {img : DevicePaddedImage F}
    (hfits : ∀ x < img.xSize, ∀ y < img.ySize,
      y * img.xStride + x < 2147483648 ∧ x + reduceBlockSize < 2147483648) :
    calcTotalIntensity s img 1 = .ok (some (totalIntensity img)) := by
  have hrun := launchSteps_eq_ok s ⟨reduceBlockSize, 1⟩ 12 oneBlockGrid_valid
    (fun t ht m => reduceIntensity_eq img.data hfits ht m)
    (fun t ht t' ht' hne hphase => reduce_unread ht ht' hne hphase) fun _ => none
  obtain ⟨sums, hcells, htotal⟩ :=
    exists_partialSums img.data img.xSize img.ySize img.xStride (le_refl 10)
  -- after the ten rounds one cell is left, and the last phase writes it out
  have hresult : reduceMemory img.data img.xSize img.ySize img.xStride 12 (.result 0) =
      some (totalIntensity img) := by
    have hlast : ReduceActive ⟨11, 0, 0, 0, 0⟩ := .inr (.inr ⟨by decide, rfl⟩)
    have hstored := reduceMemory_succ img.data img.xSize img.ySize img.xStride (by decide)
      (by decide) hlast
    simp only [reduceAddr, reduceVal] at hstored
    rw [show reduceBlockSize / 2 ^ 10 = 1 from rfl, Finset.sum_range_one] at htotal
    exact hstored.trans ((hcells 0 (by decide)).trans (congrArg some htotal))
  rw [calcTotalIntensity, show (⟨1 % 2 ^ 32, 1⟩ : Dim3) = oneBlockGrid from rfl, hrun,
    Outcome.ok_bind, Outcome.pure_eq, List.range_one, List.foldl_cons, List.foldl_nil]
  rw [reduceMemory] at hresult
  rw [hresult, Option.map₂_some_some, zero_add]

end Block

/-! ## Every number of blocks -/

section Blocks

variable {s : Scheduler} {img : DevicePaddedImage F}

/-- A sum that is known has been computed from results that were written. -/
theorem written_of_sum {results : Nat → Option F} {ks : List Nat} {start : Option F} {total : F}
    (h : ks.foldl (fun sum k => Option.map₂ (· + ·) sum (results k)) start = some total) :
    start.isSome ∧ ∀ k ∈ ks, (results k).isSome := by
  induction ks generalizing start with
  | nil => exact ⟨by rw [List.foldl_nil] at h; rw [h]; rfl, fun k hk => absurd hk List.not_mem_nil⟩
  | cons k ks ih =>
    obtain ⟨hfirst, hrest⟩ := ih h
    obtain ⟨sum, hsum⟩ := Option.isSome_iff_exists.mp hfirst
    obtain ⟨a, b, ha, hb, -⟩ := Option.map₂_eq_some_iff.mp hsum
    refine ⟨by rw [ha]; rfl, List.forall_mem_cons.mpr ⟨by rw [hb]; rfl, hrest⟩⟩

/-- No block but those of the first row of the grid would write the second result. -/
theorem result_one_unwritten {grid : Dim3} (hgrid : grid.y = 1) {data : Nat → CufftComplex F}
    {xSize ySize xStride : Nat} {m m' : IntensityCell → Option F}
    (h : launchSteps s grid ⟨reduceBlockSize, 1⟩ 12
      (reduceIntensity data xSize ySize xStride grid) m = .ok m') :
    m' (.result 1) = m (.result 1) := by
  refine launchSteps_kept h fun t ht m a hstore => ?_
  obtain ⟨-, ⟨-, hblockY⟩, -⟩ := mem_threadSteps.mp ht
  simp only [reduceIntensity] at hstore
  split at hstore
  · obtain ⟨acc, -, hstore⟩ := Outcome.bind_eq_ok.mp hstore
    simp at hstore
  · split at hstore
    · split at hstore <;> simp at hstore
    · split at hstore
      · simp only [Outcome.pure_eq, Outcome.ok.injEq, Option.some.injEq, Prod.mk.injEq,
          IntensityCell.result.injEq] at hstore
        omega
      · simp at hstore

/-- An image that is one at its first element and zero elsewhere. -/
def firstElement : Nat → CufftComplex F := fun k => if k = 0 then ⟨1, 0⟩ else ⟨0, 0⟩

theorem intensity_firstElement (k : Nat) :
    intensity (firstElement (F := F) k) = if k = 0 then 1 else 0 := by
  unfold firstElement
  split <;> simp [intensity]

theorem totalIntensity_firstElement (hx : 0 < img.xSize) (hy : 0 < img.ySize) :
    totalIntensity (img.withData firstElement) = 1 := by
  have hxle := img.xSize_le
  rw [totalIntensity, Finset.sum_eq_single 0, Finset.sum_eq_single 0]
  · show intensity (firstElement (0 * img.xStride + 0)) = 1
    rw [intensity_firstElement, Nat.zero_mul, if_pos rfl]
  · intro x _ hx0
    show intensity (firstElement (0 * img.xStride + x)) = 0
    rw [intensity_firstElement, Nat.zero_mul, Nat.zero_add, if_neg hx0]
  · intro h
    exact absurd (Finset.mem_range.mpr hx) h
  · intro y _ hy0
    refine Finset.sum_eq_zero fun x _ => ?_
    have hindex : y * img.xStride + x ≠ 0 := by
      have hpos := Nat.mul_pos (Nat.pos_of_ne_zero hy0) (hx.trans_le hxle)
      omega
    show intensity (firstElement (y * img.xStride + x)) = 0
    rw [intensity_firstElement, if_neg hindex]
  · intro h
    exact absurd (Finset.mem_range.mpr hy) h

/-- The indices of the last element fit when one block returns. -/
theorem fits_of_one {result : Option F} (h : calcTotalIntensity s img 1 = .ok result)
    (hx : 0 < img.xSize) (hy : 0 < img.ySize) :
    (img.ySize - 1) * img.xStride + img.xSize ≤ 2147483648 ∧ img.xSize ≤ 2147482624 := by
  obtain ⟨m, hrun, -⟩ := Outcome.bind_eq_ok.mp h
  have hpos : 0 < reduceBlockSize := by decide
  -- the thread that the last column belongs to
  have ht : (⟨0, 0, 0, (img.xSize - 1) % reduceBlockSize, 0⟩ : ThreadStep) ∈
      threadSteps ⟨1 % 2 ^ 32, 1⟩ ⟨reduceBlockSize, 1⟩ 12 :=
    mem_threadSteps.mpr ⟨Nat.succ_pos 11, ⟨Nat.one_pos, Nat.one_pos⟩, Nat.mod_lt _ hpos,
      Nat.one_pos⟩
  obtain ⟨m₁, w, hw⟩ := ok_of_launchSteps hrun (by decide) ht
  obtain ⟨acc, hacc, -⟩ := Outcome.bind_eq_ok.mp hw
  have hlastRow : img.ySize - 1 ∈ stridedRange 0 img.ySize 1 :=
    (mem_stridedRange Nat.one_pos).mpr ⟨by omega, img.ySize - 1, by omega⟩
  have hlast : img.xSize - 1 ∈
      stridedRange ((img.xSize - 1) % reduceBlockSize) img.xSize reduceBlockSize :=
    (mem_stridedRange hpos).mpr ⟨by omega, (img.xSize - 1) / reduceBlockSize,
      (Nat.mod_add_div _ _).symm⟩
  obtain ⟨_, _, hrow⟩ := Outcome.ok_of_foldlM hacc hlastRow
  obtain ⟨_, hrow, -⟩ := Outcome.bind_eq_ok.mp hrow
  obtain ⟨_, _, hsample⟩ := Outcome.ok_of_foldlM hrow hlast
  simp only [Outcome.bind_eq_ok, index32_eq_ok] at hsample
  obtain ⟨_, ⟨hidx, -⟩, _, ⟨hnext, -⟩, -⟩ := hsample
  simp only [reduceBlockSize] at hnext
  omega

theorem calcTotalIntensity_zero : calcTotalIntensity s img 0 = .ok (some 0) := by
  have hrefused : ¬ Dim3.Valid ⟨0 % 2 ^ 32, 1⟩ := by decide
  rw [calcTotalIntensity, launchSteps, if_neg hrefused]
  rfl

/-- With two blocks or more the second result is added, and it was not written. -/
theorem smCount_le_one {smCount : Nat} {total : F}
    (h : calcTotalIntensity s img smCount = .ok (some total)) : smCount ≤ 1 := by
  obtain ⟨m, hrun, hsum⟩ := Outcome.bind_eq_ok.mp h
  by_contra hmany
  have hwritten := (written_of_sum (Outcome.ok.inj hsum)).2 1 (List.mem_range.mpr (by omega))
  rw [result_one_unwritten rfl hrun] at hwritten
  cases hwritten

theorem oneBlock_of_totalsIntensity {smCount : Nat} (h : TotalsIntensity s img smCount) :
    OneBlock img smCount := by
  have htotal := h firstElement
  have hone := smCount_le_one htotal
  by_cases hempty : img.xSize = 0 ∨ img.ySize = 0
  · obtain rfl | rfl : smCount = 0 ∨ smCount = 1 := by omega
    · exact .inr ⟨rfl, hempty⟩
    · exact .inl ⟨rfl, hempty.imp_right .inl⟩
  · push Not at hempty
    have hx := Nat.pos_of_ne_zero hempty.1
    have hy := Nat.pos_of_ne_zero hempty.2
    obtain rfl | rfl : smCount = 0 ∨ smCount = 1 := by omega
    · rw [calcTotalIntensity_zero, totalIntensity_firstElement hx hy, Outcome.ok.injEq,
        Option.some.injEq] at htotal
      exact absurd htotal zero_ne_one
    · have hfits := fits_of_one htotal hx hy
      rw [DevicePaddedImage.withData_xSize, DevicePaddedImage.withData_ySize,
        DevicePaddedImage.withData_xStride] at hfits
      exact .inl ⟨rfl, .inr (.inr hfits)⟩

theorem totalsIntensity_of_oneBlock {smCount : Nat} (h : OneBlock img smCount) :
    TotalsIntensity s img smCount := by
  intro memory
  obtain ⟨rfl, hfits⟩ | ⟨rfl, hempty⟩ := h
  · refine calcTotalIntensity_one fun x hx y hy => ?_
    rw [DevicePaddedImage.withData_xSize] at hx
    rw [DevicePaddedImage.withData_ySize] at hy
    rw [DevicePaddedImage.withData_xStride, reduceBlockSize]
    have hrow : y * img.xStride ≤ (img.ySize - 1) * img.xStride :=
      Nat.mul_le_mul_right _ (by omega)
    omega
  · rw [calcTotalIntensity_zero]
    have hzero : totalIntensity (img.withData memory) = 0 := by
      rcases hempty with hx | hy
      · refine Finset.sum_eq_zero fun y _ => ?_
        rw [DevicePaddedImage.withData_xSize, hx, Finset.sum_range_zero]
      · rw [totalIntensity, DevicePaddedImage.withData_ySize, hy, Finset.sum_range_zero]
    rw [hzero]

/-- **When the total intensity is computed.** A one-dimensional grid has one row of blocks, so
every block adds up the whole image, and they all write the first result. -/
theorem totalsIntensity_iff {smCount : Nat} :
    TotalsIntensity s img smCount ↔ OneBlock img smCount :=
  ⟨oneBlock_of_totalsIntensity, totalsIntensity_of_oneBlock⟩

/-- An image of one element. -/
def oneElement : DevicePaddedImage ℚ where
  data := fun _ => ⟨0, 0⟩
  xSize := 1
  ySize := 1
  xStride := 1
  yStride := 1
  xSize_le := Nat.one_pos
  ySize_le := Nat.one_pos

/-- Two multiprocessors are too many for it. -/
theorem not_totalsIntensity_twoBlocks :
    ¬ TotalsIntensity Scheduler.byPhase oneElement 2 := by
  intro h
  have hone := smCount_le_one (h firstElement)
  omega

end Blocks

end Alus.PalsarFocus
