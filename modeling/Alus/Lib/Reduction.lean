import Mathlib.Algebra.BigOperators.Group.Finset.Sigma
import Mathlib.Algebra.Order.BigOperators.Group.Finset
import Mathlib.Data.Option.NAry
import Alus.Lib.Kernel

/-!
# Tree reductions in shared memory

Each thread of a block stores a sum in the shared memory of the block. A round adds the upper half
of the sums to the lower half, the rounds being separated by barriers, and the first thread writes
what is made of the last sum to the result of the block. Nothing is known of a cell that was not
written.
-/

namespace Alus.Lib

/-- A cell of the sums in shared memory, or of the results of the blocks. -/
inductive ReductionCell where
  | sharedAcc (blockX blockY sharedIdx : Nat)
  | result (index : Nat)
  deriving DecidableEq, Repr

/-- `threadIdx.x + threadIdx.y * blockDim.x`. -/
def ThreadStep.sharedIdx (block : Dim3) (t : ThreadStep) : Nat := t.threadX + t.threadY * block.x

section Reduce

variable {M : Type} [Add M]

/-- The step of a thread: its sum first, then the rounds, each of them halving the number of sums,
and at last the result. -/
def reduceStep (block : Dim3) (rounds : Nat) (resultIdx : Nat → Nat → Outcome Nat)
    (threadSum : ThreadStep → Outcome (Option M))
    (finish : Nat → Nat → Option M → Outcome (Option M)) (t : ThreadStep)
    (m : ReductionCell → Option M) : Outcome (Option (ReductionCell × Option M)) :=
  let sharedAcc := ReductionCell.sharedAcc t.blockX t.blockY
  if t.phase = 0 then do
    let acc ← threadSum t
    return some (sharedAcc (t.sharedIdx block), acc)
  else if t.phase ≤ rounds then
    let s := 2 ^ rounds / 2 ^ t.phase
    if t.sharedIdx block < s then
      return some (sharedAcc (t.sharedIdx block), Option.map₂ (· + ·)
        (m (sharedAcc (t.sharedIdx block))) (m (sharedAcc (t.sharedIdx block + s))))
    else return none
  else if t.sharedIdx block = 0 then do
    let total ← finish t.blockX t.blockY (m (sharedAcc 0))
    let index ← resultIdx t.blockX t.blockY
    return some (.result index, total)
  else return none

end Reduce

/-! ## Threads and their places -/

section Places

variable {block : Dim3} {rounds : Nat}

theorem sharedIdx_mod {t : ThreadStep} (hx : t.threadX < block.x) :
    t.sharedIdx block % block.x = t.threadX := by
  rw [ThreadStep.sharedIdx, Nat.add_mul_mod_self_right, Nat.mod_eq_of_lt hx]

theorem sharedIdx_div {t : ThreadStep} (hx : t.threadX < block.x) :
    t.sharedIdx block / block.x = t.threadY := by
  rw [ThreadStep.sharedIdx, Nat.add_mul_div_right _ _ (by omega), Nat.div_eq_of_lt hx,
    Nat.zero_add]

theorem sharedIdx_inj {t t' : ThreadStep} (hx : t.threadX < block.x) (hx' : t'.threadX < block.x)
    (h : t.sharedIdx block = t'.sharedIdx block) :
    t.threadX = t'.threadX ∧ t.threadY = t'.threadY := by
  constructor
  · rw [← sharedIdx_mod hx, h, sharedIdx_mod hx']
  · rw [← sharedIdx_div hx, h, sharedIdx_div hx']

/-- The thread of a place. -/
theorem exists_thread {i : Nat} (hi : i < block.x * block.y) (phase blockX blockY : Nat) :
    ∃ t : ThreadStep, (t.phase = phase ∧ t.blockX = blockX ∧ t.blockY = blockY) ∧
      (t.threadX < block.x ∧ t.threadY < block.y) ∧ t.sharedIdx block = i := by
  have hx : 0 < block.x := Nat.pos_of_ne_zero fun h => by simp [h] at hi
  refine ⟨⟨phase, blockX, blockY, i % block.x, i / block.x⟩, ⟨rfl, rfl, rfl⟩,
    ⟨Nat.mod_lt i hx, Nat.div_lt_of_lt_mul hi⟩, ?_⟩
  exact Nat.mod_add_div' i block.x

/-- The sum over all places, thread by thread. -/
theorem sum_places {M : Type*} [AddCommMonoid M] (f : Nat → M) (width height : Nat) :
    ∑ i ∈ Finset.range (width * height), f i =
      ∑ y ∈ Finset.range height, ∑ x ∈ Finset.range width, f (x + y * width) := by
  induction height with
  | zero => rw [Nat.mul_zero, Finset.sum_range_zero, Finset.sum_range_zero]
  | succ height ih =>
    rw [Nat.mul_succ, Finset.sum_range_add, ih, Finset.sum_range_succ]
    refine congrArg _ (Finset.sum_congr rfl fun x _ => ?_)
    rw [Nat.mul_comm width, Nat.add_comm]

/-- The sum over the threads of all blocks, which cover a rectangle. -/
theorem sum_blocks {M : Type*} [AddCommMonoid M] {gridX width : Nat} (hgrid : 0 < gridX)
    (hwidth : 0 < width) (gridY height : Nat) (f : Nat → Nat → M) :
    ∑ k ∈ Finset.range (gridX * gridY), ∑ i ∈ Finset.range (width * height),
        f (i % width + k % gridX * width) (i / width + k / gridX * height) =
      ∑ y ∈ Finset.range (height * gridY), ∑ x ∈ Finset.range (width * gridX), f x y := by
  have hplace {a b n : Nat} (hn : 0 < n) (ha : a ∈ Finset.range n) :
      (a + b * n) % n = a ∧ (a + b * n) / n = b := by
    have ha := Finset.mem_range.mp ha
    rw [Nat.add_mul_mod_self_right, Nat.mod_eq_of_lt ha, Nat.add_mul_div_right a b hn,
      Nat.div_eq_of_lt ha, Nat.zero_add]
    exact ⟨rfl, rfl⟩
  rw [sum_places, sum_places]
  refine Finset.sum_congr rfl fun blockY _ => ?_
  have hblock : ∀ blockX ∈ Finset.range gridX, ∑ i ∈ Finset.range (width * height),
      f (i % width + (blockX + blockY * gridX) % gridX * width)
        (i / width + (blockX + blockY * gridX) / gridX * height) =
      ∑ threadY ∈ Finset.range height, ∑ threadX ∈ Finset.range width,
        f (threadX + blockX * width) (threadY + blockY * height) := by
    intro blockX hx
    rw [(hplace hgrid hx).1, (hplace hgrid hx).2, sum_places]
    refine Finset.sum_congr rfl fun threadY _ => Finset.sum_congr rfl fun threadX ht => ?_
    rw [(hplace hwidth ht).1, (hplace hwidth ht).2]
  rw [Finset.sum_congr rfl hblock, Finset.sum_comm]
  refine Finset.sum_congr rfl fun threadY _ => ?_
  rw [sum_places]

theorem stridedRange_add (a start stop step : Nat) :
    stridedRange (a + start) (a + stop) step = (stridedRange start stop step).map (a + ·) := by
  rw [stridedRange, stridedRange, List.map_add_range', Nat.add_sub_add_left]

/-- The threads of a block go through a rectangle in strides of its sides, and visit each element
once. -/
theorem sum_rectangle {M : Type*} [AddCommMonoid M] {width height : Nat} (hwidth : 0 < width)
    (hheight : 0 < height) (rows columns : Nat) (g : Nat → Nat → M) :
    ∑ i ∈ Finset.range (width * height),
        ((stridedRange (i / width) rows height).map fun r =>
          ((stridedRange (i % width) columns width).map fun c => g r c).sum).sum =
      ∑ r ∈ Finset.range rows, ∑ c ∈ Finset.range columns, g r c := by
  have hplace : ∀ y ∈ Finset.range height, ∀ x ∈ Finset.range width,
      ((stridedRange ((x + y * width) / width) rows height).map fun r =>
        ((stridedRange ((x + y * width) % width) columns width).map fun c => g r c).sum).sum =
      ((stridedRange y rows height).map fun r =>
        ((stridedRange x columns width).map fun c => g r c).sum).sum := by
    intro y _ x hx
    have hx := Finset.mem_range.mp hx
    rw [Nat.add_mul_div_right x y hwidth, Nat.div_eq_of_lt hx, Nat.zero_add,
      Nat.add_mul_mod_self_right, Nat.mod_eq_of_lt hx]
  calc _ = ∑ y ∈ Finset.range height, ∑ x ∈ Finset.range width,
        ((stridedRange y rows height).map fun r =>
          ((stridedRange x columns width).map fun c => g r c).sum).sum :=
      (sum_places _ width height).trans (Finset.sum_congr rfl fun y hy =>
        Finset.sum_congr rfl (hplace y hy))
    _ = ∑ x ∈ Finset.range width, ∑ r ∈ Finset.range rows,
        ((stridedRange x columns width).map fun c => g r c).sum := by
      rw [Finset.sum_comm]
      exact Finset.sum_congr rfl fun x _ => sum_stridedRange hheight rows _
    _ = ∑ r ∈ Finset.range rows, ∑ c ∈ Finset.range columns, g r c := by
      rw [Finset.sum_comm]
      exact Finset.sum_congr rfl fun r _ => sum_stridedRange hwidth columns (g r)

end Places

theorem sum_map_range {M : Type*} [AddCommMonoid M] (n : Nat) (g : Nat → M) :
    ((List.range n).map g).sum = ∑ i ∈ Finset.range n, g i := by
  rw [Finset.sum_eq_multiset_sum, Finset.range_val, ← Multiset.coe_range, Multiset.map_coe,
    Multiset.sum_coe]

/-- An accumulating loop whose terms are all known. -/
theorem foldl_map₂_some {ι M : Type*} [AddMonoid M] (l : List ι) (f : ι → M) (a : M) :
    l.foldl (fun acc i => Option.map₂ (· + ·) acc (some (f i))) (some a) =
      some (a + (l.map f).sum) := by
  induction l generalizing a with
  | nil => rw [List.foldl_nil, List.map_nil, List.sum_nil, add_zero]
  | cons i l ih =>
    rw [List.foldl_cons, Option.map₂_some_some, ih, List.map_cons, List.sum_cons, add_assoc]

/-- A loop whose state is determined by a sum that its rounds add to. -/
theorem foldlM_summed {ι M σ : Type} [AddMonoid M] {S : M → σ} {f : σ → ι → Outcome σ} {g : ι → M}
    {l : List ι} (h : ∀ i ∈ l, ∀ e, f (S e) i = .ok (S (e + g i))) (e : M) :
    l.foldlM f (S e) = .ok (S (e + (l.map g).sum)) := by
  induction l generalizing e with
  | nil =>
    rw [List.map_nil, List.sum_nil, add_zero]
    rfl
  | cons i l ih =>
    rw [List.foldlM_cons, h i List.mem_cons_self, Outcome.ok_bind,
      ih fun j hj => h j (List.mem_cons_of_mem i hj), List.map_cons, List.sum_cons, add_assoc]

/-- Sums of remainders are the sums of the numbers exactly where no number is reduced. -/
theorem sum_mod_eq_iff {ι ι' : Type*} (s : Finset ι) (s' : Finset ι') (f : ι → ι' → Nat) {w : Nat}
    (hw : 0 < w) : ∑ i ∈ s, ∑ j ∈ s', f i j % w = ∑ i ∈ s, ∑ j ∈ s', f i j ↔
      ∀ i ∈ s, ∀ j ∈ s', f i j < w := by
  rw [Finset.sum_eq_sum_iff_of_le fun i _ => Finset.sum_le_sum fun j _ => Nat.mod_le _ _]
  refine forall₂_congr fun i _ => ?_
  rw [Finset.sum_eq_sum_iff_of_le fun j _ => Nat.mod_le _ _]
  refine forall₂_congr fun j _ => ?_
  rw [Nat.mod_eq_iff_lt hw.ne']

/-! ## What a launch writes -/

section Launch

variable {M : Type} [AddCommMonoid M] {grid block : Dim3} {rounds : Nat}
  {index : Nat → Nat → Nat} {sums : Nat → Nat → Nat → M} {total : Nat → Nat → Option M → Option M}

/-- The thread stores something in this phase. -/
def ReduceActive (block : Dim3) (rounds : Nat) (t : ThreadStep) : Prop :=
  t.phase = 0 ∨ (t.phase ≤ rounds ∧ t.sharedIdx block < 2 ^ rounds / 2 ^ t.phase) ∨
    (rounds < t.phase ∧ t.sharedIdx block = 0)

instance : DecidablePred (ReduceActive block rounds) := fun t => by
  unfold ReduceActive
  infer_instance

def reduceAddr (block : Dim3) (rounds : Nat) (index : Nat → Nat → Nat) (t : ThreadStep) :
    ReductionCell :=
  if t.phase ≤ rounds then .sharedAcc t.blockX t.blockY (t.sharedIdx block)
  else .result (index t.blockX t.blockY)

def reduceVal (block : Dim3) (rounds : Nat) (sums : Nat → Nat → Nat → M)
    (total : Nat → Nat → Option M → Option M) (t : ThreadStep) (m : ReductionCell → Option M) :
    Option M :=
  if t.phase = 0 then some (sums t.blockX t.blockY (t.sharedIdx block))
  else if t.phase ≤ rounds then
    Option.map₂ (· + ·) (m (.sharedAcc t.blockX t.blockY (t.sharedIdx block)))
      (m (.sharedAcc t.blockX t.blockY (t.sharedIdx block + 2 ^ rounds / 2 ^ t.phase)))
  else total t.blockX t.blockY (m (.sharedAcc t.blockX t.blockY 0))

theorem reduceStep_eq (rounds : Nat) {resultIdx : Nat → Nat → Outcome Nat}
    {threadSum : ThreadStep → Outcome (Option M)}
    {finish : Nat → Nat → Option M → Outcome (Option M)} {t : ThreadStep}
    (hsum : threadSum t = .ok (some (sums t.blockX t.blockY (t.sharedIdx block))))
    (hfinish : ∀ a, finish t.blockX t.blockY a = .ok (total t.blockX t.blockY a))
    (hindex : resultIdx t.blockX t.blockY = .ok (index t.blockX t.blockY))
    (m : ReductionCell → Option M) :
    reduceStep block rounds resultIdx threadSum finish t m =
      .ok (if ReduceActive block rounds t then
        some (reduceAddr block rounds index t, reduceVal block rounds sums total t m)
      else none) := by
  simp only [reduceStep, ReduceActive, reduceAddr, reduceVal]
  by_cases h0 : t.phase = 0
  · simp only [h0, if_true, hsum, true_or, Nat.zero_le, Outcome.ok_bind, Outcome.pure_eq]
  · by_cases hround : t.phase ≤ rounds
    · have hnot : ¬ rounds < t.phase := not_lt.mpr hround
      simp only [h0, hround, hnot, if_true, if_false, false_or, true_and, false_and, or_false]
      split <;> rfl
    · have hlast : rounds < t.phase := not_le.mp hround
      simp only [h0, hround, hlast, if_false, false_or, true_and, false_and, hfinish, hindex]
      split <;> rfl

/-- The threads of a block have their own cells, and in one phase do not read each other's. -/
theorem reduce_unread_sameBlock {t t' : ThreadStep} (hx : t.threadX < block.x)
    (hx' : t'.threadX < block.x) (hne : t ≠ t')
    (hblock : t.blockX = t'.blockX ∧ t.blockY = t'.blockY) (hsame : t.phase = t'.phase) :
    Unread (ReduceActive block rounds) (reduceAddr block rounds index)
      (reduceVal block rounds sums total) t t' := by
  intro hact hact'
  have hplace : t.sharedIdx block ≠ t'.sharedIdx block := by
    intro h
    obtain ⟨hthreadX, hthreadY⟩ := sharedIdx_inj hx hx' h
    refine hne ?_
    cases t
    cases t'
    simp only [ThreadStep.mk.injEq]
    exact ⟨hsame, hblock.1, hblock.2, hthreadX, hthreadY⟩
  simp only [ReduceActive] at hact hact'
  by_cases hround : t.phase ≤ rounds
  · simp only [reduceAddr, reduceVal, if_pos hround, if_pos (hsame ▸ hround), ne_eq,
      ReductionCell.sharedAcc.injEq]
    refine ⟨fun h => hplace h.2.2, fun m a => ?_⟩
    by_cases h0 : t.phase = 0
    · simp only [if_pos h0]
    -- the other thread stores below the half, and only this one reads its own cell
    · simp only [if_neg h0]
      rw [Function.update_of_ne, Function.update_of_ne]
      · rw [ne_eq, ReductionCell.sharedAcc.injEq]
        rw [← hsame] at hact'
        omega
      · rw [ne_eq, ReductionCell.sharedAcc.injEq]
        exact fun h => hplace h.2.2
  -- after the rounds there is one thread
  · omega

/-- The memories of the blocks are apart. -/
theorem reduce_unread_otherBlock {t t' : ThreadStep}
    (hindex : index t.blockX t.blockY ≠ index t'.blockX t'.blockY)
    (hblock : ¬ (t.blockX = t'.blockX ∧ t.blockY = t'.blockY)) :
    Unread (ReduceActive block rounds) (reduceAddr block rounds index)
      (reduceVal block rounds sums total) t t' := by
  intro _ _
  have hshared : ∀ i j, ReductionCell.sharedAcc t.blockX t.blockY i ≠
      ReductionCell.sharedAcc t'.blockX t'.blockY j := by
    intro i j h
    rw [ReductionCell.sharedAcc.injEq] at h
    exact hblock ⟨h.1, h.2.1⟩
  have hread : ∀ i, ReductionCell.sharedAcc t.blockX t.blockY i ≠
      reduceAddr block rounds index t' := by
    intro i
    unfold reduceAddr
    split
    · exact hshared i _
    · exact ReductionCell.noConfusion
  refine ⟨?_, fun m a => ?_⟩
  · unfold reduceAddr
    split
    · exact hread _
    · split
      · exact ReductionCell.noConfusion
      · exact fun h => hindex (ReductionCell.result.inj h)
  · unfold reduceVal
    rw [Function.update_of_ne (hread _), Function.update_of_ne (hread _),
      Function.update_of_ne (hread _)]

/-- The steps of a phase of a block have their own cells and do not read each other's, nor do
steps of different blocks. -/
theorem reduce_unread (phases : Nat)
    (hinj : ∀ x y x' y', x < grid.x → y < grid.y → x' < grid.x → y' < grid.y →
      index x y = index x' y' → x = x' ∧ y = y')
    {t t' : ThreadStep} (ht : t ∈ threadSteps grid block phases)
    (ht' : t' ∈ threadSteps grid block phases) (hne : t ≠ t')
    (hphase : t.blockX = t'.blockX ∧ t.blockY = t'.blockY → t.phase = t'.phase) :
    Unread (ReduceActive block rounds) (reduceAddr block rounds index)
      (reduceVal block rounds sums total) t t' := by
  obtain ⟨-, ⟨hbx, hby⟩, hx, -⟩ := mem_threadSteps.mp ht
  obtain ⟨-, ⟨hbx', hby'⟩, hx', -⟩ := mem_threadSteps.mp ht'
  by_cases hblock : t.blockX = t'.blockX ∧ t.blockY = t'.blockY
  · exact reduce_unread_sameBlock hx hx' hne hblock (hphase hblock)
  · exact reduce_unread_otherBlock (fun h => hblock (hinj _ _ _ _ hbx hby hbx' hby' h)) hblock

/-- The memory after the given number of phases, phase by phase. -/
def reduceMemory (grid block : Dim3) (rounds : Nat) (index : Nat → Nat → Nat)
    (sums : Nat → Nat → Nat → M) (total : Nat → Nat → Option M → Option M) (phases : Nat)
    (m : ReductionCell → Option M) : ReductionCell → Option M :=
  (threadSteps grid block phases).foldl (storeStep (ReduceActive block rounds)
    (reduceAddr block rounds index) (reduceVal block rounds sums total)) m

section Phases

variable (hinj : ∀ x y x' y', x < grid.x → y < grid.y → x' < grid.x → y' < grid.y →
  index x y = index x' y' → x = x' ∧ y = y')
include hinj

/-- What one phase stores. -/
theorem reduceMemory_succ (rounds : Nat) (sums : Nat → Nat → Nat → M)
    (total : Nat → Nat → Option M → Option M) (m : ReductionCell → Option M) {t : ThreadStep}
    (hblock : t.blockX < grid.x ∧ t.blockY < grid.y)
    (hthread : t.threadX < block.x ∧ t.threadY < block.y) (hact : ReduceActive block rounds t) :
    reduceMemory grid block rounds index sums total (t.phase + 1) m
        (reduceAddr block rounds index t) =
      reduceVal block rounds sums total t
        (reduceMemory grid block rounds index sums total t.phase m) := by
  rw [reduceMemory, threadSteps_succ, List.foldl_append]
  refine (foldl_storeStep (nodup_phaseSteps _ _ t.phase) (fun u hu u' hu' hne => ?_) _).1 t
    (mem_phaseSteps.mpr ⟨rfl, hblock, hthread⟩) hact
  obtain ⟨hp, hu⟩ := mem_phaseSteps.mp hu
  obtain ⟨hp', hu'⟩ := mem_phaseSteps.mp hu'
  exact reduce_unread (t.phase + 1) hinj (mem_threadSteps.mpr ⟨by omega, hu⟩)
    (mem_threadSteps.mpr ⟨by omega, hu'⟩) hne fun _ => by omega

/-- Each round keeps the sum of a block, and halves the number of cells that it is spread over. -/
theorem exists_partialSums (hsize : block.x * block.y = 2 ^ rounds)
    (sums : Nat → Nat → Nat → M) (total : Nat → Nat → Option M → Option M)
    (m : ReductionCell → Option M) {blockX blockY : Nat} (hbx : blockX < grid.x)
    (hby : blockY < grid.y) {phase : Nat} (hphase : phase ≤ rounds) : ∃ partials : Nat → M,
      (∀ i < 2 ^ rounds / 2 ^ phase,
        reduceMemory grid block rounds index sums total (phase + 1) m
          (.sharedAcc blockX blockY i) = some (partials i)) ∧
      ∑ i ∈ Finset.range (2 ^ rounds / 2 ^ phase), partials i =
        ∑ i ∈ Finset.range (2 ^ rounds), sums blockX blockY i := by
  induction phase with
  | zero =>
    rw [Nat.pow_zero, Nat.div_one]
    refine ⟨sums blockX blockY, fun i hi => ?_, rfl⟩
    obtain ⟨t, ⟨hp, rfl, rfl⟩, hthread, rfl⟩ := exists_thread (hsize ▸ hi) 0 blockX blockY
    have hstored := reduceMemory_succ hinj rounds sums total m ⟨hbx, hby⟩ hthread (.inl hp)
    simpa only [hp, reduceAddr, reduceVal, Nat.zero_le, if_true] using hstored
  | succ phase ih =>
    obtain ⟨partials, hcells, htotal⟩ := ih (by omega)
    -- the number of threads is a power of two, so no cell is left over in a round
    have hhalf : 2 ^ rounds / 2 ^ phase =
        2 ^ rounds / 2 ^ (phase + 1) + 2 ^ rounds / 2 ^ (phase + 1) := by
      rw [Nat.pow_div (by omega) Nat.two_pos, Nat.pow_div hphase Nat.two_pos,
        show rounds - phase = rounds - (phase + 1) + 1 by omega, Nat.pow_succ]
      omega
    rw [hhalf] at hcells htotal
    refine ⟨fun i => partials i + partials (i + 2 ^ rounds / 2 ^ (phase + 1)),
      fun i hi => ?_, ?_⟩
    · have hplace : i < block.x * block.y :=
        hsize ▸ hi.trans_le (Nat.div_le_self _ _)
      obtain ⟨t, ⟨hp, rfl, rfl⟩, hthread, rfl⟩ := exists_thread hplace (phase + 1) blockX blockY
      have hstored := reduceMemory_succ hinj rounds sums total m ⟨hbx, hby⟩ hthread
        (.inr (.inl ⟨by omega, by rwa [hp]⟩))
      simp only [hp, reduceAddr, reduceVal, if_pos hphase, Nat.succ_ne_zero, if_false] at hstored
      rw [hstored, hcells _ (by omega), hcells _ (by omega)]
      rfl
    · rw [sum_halves, htotal]

end Phases

/-- Whatever the order of the threads, the result of a block is made of the sum over its
threads. -/
theorem exists_launchReduce (s : Scheduler) (grid block : Dim3) (rounds : Nat)
    (index : Nat → Nat → Nat) (sums : Nat → Nat → Nat → M)
    (total : Nat → Nat → Option M → Option M) (hvalid : grid.Valid)
    (hsize : block.x * block.y = 2 ^ rounds)
    (hinj : ∀ x y x' y', x < grid.x → y < grid.y → x' < grid.x → y' < grid.y →
      index x y = index x' y' → x = x' ∧ y = y')
    {resultIdx : Nat → Nat → Outcome Nat} {threadSum : ThreadStep → Outcome (Option M)}
    {finish : Nat → Nat → Option M → Outcome (Option M)}
    (hstep : ∀ t : ThreadStep, t.blockX < grid.x → t.blockY < grid.y → t.threadX < block.x →
      t.threadY < block.y →
      threadSum t = .ok (some (sums t.blockX t.blockY (t.sharedIdx block))) ∧
      (∀ a, finish t.blockX t.blockY a = .ok (total t.blockX t.blockY a)) ∧
      resultIdx t.blockX t.blockY = .ok (index t.blockX t.blockY))
    (m : ReductionCell → Option M) :
    ∃ m', launchSteps s grid block (rounds + 2)
        (reduceStep block rounds resultIdx threadSum finish) m = .ok m' ∧
      ∀ blockX < grid.x, ∀ blockY < grid.y, m' (.result (index blockX blockY)) =
        total blockX blockY (some (∑ i ∈ Finset.range (2 ^ rounds), sums blockX blockY i)) := by
  have hrun := launchSteps_eq_ok s block (rounds + 2) hvalid
    (fun t ht m => by
      obtain ⟨-, ⟨hbx, hby⟩, hx, hy⟩ := mem_threadSteps.mp ht
      obtain ⟨hsum, hfinish, hindex⟩ := hstep t hbx hby hx hy
      exact reduceStep_eq rounds hsum hfinish hindex m)
    (fun t ht t' ht' hne hphase => reduce_unread _ hinj ht ht' hne hphase) m
  refine ⟨_, hrun, fun blockX hbx blockY hby => ?_⟩
  obtain ⟨partials, hcells, htotal⟩ :=
    exists_partialSums hinj hsize sums total m hbx hby (le_refl rounds)
  rw [Nat.div_self (Nat.two_pow_pos rounds)] at hcells htotal
  rw [Finset.sum_range_one] at htotal
  -- the last phase makes the result of the one sum that is left
  have hplace : 0 < block.x * block.y := hsize ▸ Nat.two_pow_pos rounds
  obtain ⟨t, ⟨hp, rfl, rfl⟩, hthread, hplace⟩ := exists_thread hplace (rounds + 1) blockX blockY
  have hlast : ¬ rounds + 1 ≤ rounds := by omega
  have hstored := reduceMemory_succ hinj rounds sums total m ⟨hbx, hby⟩ hthread
    (.inr (.inr ⟨by omega, hplace⟩))
  simp only [hp, reduceAddr, reduceVal, if_neg hlast, Nat.succ_ne_zero, if_false] at hstored
  rw [hcells 0 Nat.one_pos, htotal] at hstored
  exact hstored

/-- Only a finish is stored to a result. -/
theorem finish_of_reduceStep {resultIdx : Nat → Nat → Outcome Nat}
    {threadSum : ThreadStep → Outcome (Option M)}
    {finish : Nat → Nat → Option M → Outcome (Option M)} {t : ThreadStep}
    {m : ReductionCell → Option M} {i : Nat} {a : Option M}
    (h : reduceStep block rounds resultIdx threadSum finish t m = .ok (some (.result i, a))) :
    ∃ acc, finish t.blockX t.blockY acc = .ok a := by
  simp only [reduceStep] at h
  split at h
  · obtain ⟨acc, -, h⟩ := Outcome.bind_eq_ok.mp h
    cases h
  · split at h
    · split at h <;> cases h
    · split at h
      · obtain ⟨total, htotal, h⟩ := Outcome.bind_eq_ok.mp h
        obtain ⟨index, -, h⟩ := Outcome.bind_eq_ok.mp h
        simp only [Outcome.pure_eq, Outcome.ok.injEq, Option.some.injEq, Prod.mk.injEq] at h
        exact ⟨_, h.2 ▸ htotal⟩
      · cases h

/-- What every finish returns holds of the results that were written. -/
theorem result_of_finish {s : Scheduler} {phases : Nat} {resultIdx : Nat → Nat → Outcome Nat}
    {threadSum : ThreadStep → Outcome (Option M)}
    {finish : Nat → Nat → Option M → Outcome (Option M)} {m m' : ReductionCell → Option M}
    (h : launchSteps s grid block phases (reduceStep block rounds resultIdx threadSum finish) m =
      .ok m') (P : Option M → Prop) (hm : ∀ i, P (m (.result i)))
    (hfinish : ∀ blockX blockY acc a, finish blockX blockY acc = .ok a → P a) (i : Nat) :
    P (m' (.result i)) := by
  unfold launchSteps at h
  split at h
  · refine Outcome.foldlM_inv (fun m => ∀ i, P (m (.result i))) (fun m t m₁ _ hm hstep => ?_) hm h i
    obtain ⟨w, hw, hm₁⟩ := Outcome.bind_eq_ok.mp hstep
    obtain rfl := Outcome.ok.inj hm₁
    intro i
    cases w with
    | none => exact hm i
    | some w =>
      obtain ⟨cell, a⟩ := w
      by_cases hcell : ReductionCell.result i = cell
      · subst hcell
        obtain ⟨acc, hacc⟩ := finish_of_reduceStep hw
        rw [applyStore, Function.update_self]
        exact hfinish _ _ _ _ hacc
      · rw [applyStore, Function.update_of_ne hcell]
        exact hm i
  · exact Outcome.ok.inj h ▸ hm i

end Launch

/-! ## A second reduction

One block reduces the results of a launch before it: its threads read them in the first phase, and
the first of them is written in the last one.
-/

section Second

variable {M : Type} [AddCommMonoid M] {block : Dim3} {rounds : Nat} {sums : Nat → M}
  {read : ThreadStep → (ReductionCell → Option M) → Option M}

/-- There is one block. -/
theorem oneBlock_inj (x y x' y' : Nat) (hx : x < (⟨1, 1⟩ : Dim3).x) (hy : y < (⟨1, 1⟩ : Dim3).y)
    (hx' : x' < (⟨1, 1⟩ : Dim3).x) (hy' : y' < (⟨1, 1⟩ : Dim3).y) : x = x' ∧ y = y' :=
  ⟨(Nat.lt_one_iff.mp hx).trans (Nat.lt_one_iff.mp hx').symm,
    (Nat.lt_one_iff.mp hy).trans (Nat.lt_one_iff.mp hy').symm⟩

/-- The steps of a phase of the one block. -/
theorem oneBlock_unread {sums : Nat → Nat → Nat → M} {total : Nat → Nat → Option M → Option M}
    (phases : Nat) {t t' : ThreadStep} (ht : t ∈ threadSteps ⟨1, 1⟩ block phases)
    (ht' : t' ∈ threadSteps ⟨1, 1⟩ block phases) (hne : t ≠ t') (hphase : t.phase = t'.phase) :
    Unread (ReduceActive block rounds) (reduceAddr block rounds fun _ _ => 0)
      (reduceVal block rounds sums total) t t' := by
  obtain ⟨-, ⟨hbx, hby⟩, hx, -⟩ := mem_threadSteps.mp ht
  obtain ⟨-, ⟨hbx', hby'⟩, hx', -⟩ := mem_threadSteps.mp ht'
  exact reduce_unread_sameBlock hx hx' hne (oneBlock_inj _ _ _ _ hbx hby hbx' hby') hphase

/-- What a step stores, the sums being read from the memory. -/
def secondVal (block : Dim3) (rounds : Nat)
    (read : ThreadStep → (ReductionCell → Option M) → Option M) (t : ThreadStep)
    (m : ReductionCell → Option M) : Option M :=
  if t.phase = 0 then read t m
  else reduceVal block rounds (fun _ _ _ => 0) (fun _ _ a => a) t m

theorem secondStep_eq (rounds : Nat) {threadSum : ThreadStep → Outcome (Option M)} {t : ThreadStep}
    {m : ReductionCell → Option M} (hsum : threadSum t = .ok (read t m)) :
    reduceStep block rounds (fun _ _ => .ok 0) threadSum (fun _ _ a => .ok a) t m =
      .ok (if ReduceActive block rounds t then
        some (reduceAddr block rounds (fun _ _ => 0) t, secondVal block rounds read t m)
      else none) := by
  by_cases h0 : t.phase = 0
  · simp only [reduceStep, ReduceActive, reduceAddr, secondVal, h0, if_true, hsum, true_or,
      Nat.zero_le, Outcome.ok_bind, Outcome.pure_eq]
  -- the sums are read in the first phase only
  · have hfixed : reduceStep block rounds (fun _ _ => .ok 0) (fun _ => .ok (some 0))
        (fun _ _ a => .ok a) t m = .ok (if ReduceActive block rounds t then
          some (reduceAddr block rounds (fun _ _ => 0) t,
            reduceVal block rounds (fun _ _ _ => 0) (fun _ _ a => a) t m)
        else none) := reduceStep_eq rounds rfl (fun _ => rfl) rfl m
    rw [secondVal, if_neg h0, ← hfixed]
    simp only [reduceStep, if_neg h0]

/-- The steps of a phase do not read each other's cells, if the sums are made of results. -/
theorem second_unread
    (hread : ∀ t m m', (∀ i, m (.result i) = m' (.result i)) → read t m = read t m') (phases : Nat)
    {t t' : ThreadStep} (ht : t ∈ threadSteps ⟨1, 1⟩ block phases)
    (ht' : t' ∈ threadSteps ⟨1, 1⟩ block phases) (hne : t ≠ t') (hphase : t.phase = t'.phase) :
    Unread (ReduceActive block rounds) (reduceAddr block rounds fun _ _ => 0)
      (secondVal block rounds read) t t' := by
  intro hact hact'
  have hfixed : Unread (ReduceActive block rounds) (reduceAddr block rounds fun _ _ => 0)
      (reduceVal block rounds (fun _ _ _ => (0 : M)) fun _ _ a => a) t t' :=
    oneBlock_unread phases ht ht' hne hphase
  obtain ⟨haddr, hval⟩ := hfixed hact hact'
  refine ⟨haddr, fun m a => ?_⟩
  unfold secondVal
  split
  · next h0 =>
    apply hread
    intro i
    rw [reduceAddr, if_pos (by omega), Function.update_of_ne ReductionCell.noConfusion]
  · exact hval m a

/-- Phase by phase, the memory is that of a reduction whose sums are known from the start. -/
theorem foldl_second
    (hread : ∀ t m m', (∀ i, m (.result i) = m' (.result i)) → read t m = read t m')
    (m : ReductionCell → Option M)
    (hsums : ∀ t ∈ threadSteps ⟨1, 1⟩ block 1, read t m = some (sums (t.sharedIdx block)))
    (phases : Nat) :
    (threadSteps ⟨1, 1⟩ block phases).foldl (storeStep (ReduceActive block rounds)
        (reduceAddr block rounds fun _ _ => 0) (secondVal block rounds read)) m =
      reduceMemory ⟨1, 1⟩ block rounds (fun _ _ => 0) (fun _ _ => sums) (fun _ _ a => a)
        phases m := by
  induction phases with
  | zero => rfl
  | succ phases ih =>
    rw [reduceMemory, threadSteps_succ, List.foldl_append, List.foldl_append, ih, reduceMemory]
    cases phases with
    | zero =>
      -- the steps of the first phase read the results, and store elsewhere
      have hinto : ∀ t ∈ phaseSteps ⟨1, 1⟩ block 0, t ∈ threadSteps ⟨1, 1⟩ block 1 := by
        intro t ht
        obtain ⟨hp, hbounds⟩ := mem_phaseSteps.mp ht
        exact mem_threadSteps.mpr ⟨by omega, hbounds⟩
      have hzero : ∀ t ∈ phaseSteps ⟨1, 1⟩ block 0, t.phase = 0 :=
        fun t ht => (mem_phaseSteps.mp ht).1
      apply foldl_storeStep_congr (nodup_phaseSteps ⟨1, 1⟩ block 0)
      · intro t ht t' ht' hne
        exact second_unread hread 1 (hinto t ht) (hinto t' ht') hne
          ((hzero t ht).trans (hzero t' ht').symm)
      · intro t ht t' ht' hne
        exact oneBlock_unread 1 (hinto t ht) (hinto t' ht') hne
          ((hzero t ht).trans (hzero t' ht').symm)
      · intro t ht _
        show secondVal block rounds read t m = reduceVal block rounds (fun _ _ => sums) _ t m
        rw [secondVal, if_pos (hzero t ht), hsums t (hinto t ht), reduceVal, if_pos (hzero t ht)]
    | succ phase =>
      apply List.foldl_ext
      intro m' t ht
      have hlater : t.phase ≠ 0 := by
        rw [(mem_phaseSteps.mp ht).1]
        exact Nat.succ_ne_zero phase
      simp only [storeStep, secondVal, reduceVal, if_neg hlater]

/-- Whatever the order of the threads, the first result becomes the sum of what they read. -/
theorem exists_launchSecond (s : Scheduler) (hsize : block.x * block.y = 2 ^ rounds)
    {threadSum : (ReductionCell → Option M) → ThreadStep → Outcome (Option M)}
    (hthread : ∀ t ∈ threadSteps ⟨1, 1⟩ block (rounds + 2), ∀ m, threadSum m t = .ok (read t m))
    (hread : ∀ t m m', (∀ i, m (.result i) = m' (.result i)) → read t m = read t m')
    (m : ReductionCell → Option M)
    (hsums : ∀ t ∈ threadSteps ⟨1, 1⟩ block 1, read t m = some (sums (t.sharedIdx block))) :
    ∃ m', launchSteps s ⟨1, 1⟩ block (rounds + 2) (fun t m =>
        reduceStep block rounds (fun _ _ => .ok 0) (threadSum m) (fun _ _ a => .ok a) t m) m =
          .ok m' ∧
      m' (.result 0) = some (∑ i ∈ Finset.range (2 ^ rounds), sums i) := by
  have hvalid : (⟨1, 1⟩ : Dim3).Valid := by decide
  have hinj : ∀ x y x' y', x < 1 → y < 1 → x' < 1 → y' < 1 → (0 : Nat) = 0 → x = x' ∧ y = y' :=
    fun x y x' y' hx hy hx' hy' _ => oneBlock_inj x y x' y' hx hy hx' hy'
  have hreading : ∀ t ∈ threadSteps ⟨1, 1⟩ block (rounds + 2),
      ∀ t' ∈ threadSteps ⟨1, 1⟩ block (rounds + 2), t ≠ t' →
        ((t.blockX = t'.blockX ∧ t.blockY = t'.blockY) → t.phase = t'.phase) →
        Unread (ReduceActive block rounds) (reduceAddr block rounds fun _ _ => 0)
          (secondVal block rounds read) t t' := by
    intro t ht t' ht' hne hphase
    obtain ⟨-, hblock, -⟩ := mem_threadSteps.mp ht
    obtain ⟨-, hblock', -⟩ := mem_threadSteps.mp ht'
    exact second_unread hread _ ht ht' hne
      (hphase (oneBlock_inj _ _ _ _ hblock.1 hblock.2 hblock'.1 hblock'.2))
  have hkernel : ∀ t ∈ threadSteps ⟨1, 1⟩ block (rounds + 2), ∀ m,
      reduceStep block rounds (fun _ _ => .ok 0) (threadSum m) (fun _ _ a => .ok a) t m =
        .ok (if ReduceActive block rounds t then
          some (reduceAddr block rounds (fun _ _ => 0) t, secondVal block rounds read t m)
        else none) :=
    fun t ht m => secondStep_eq rounds (hthread t ht m)
  have hrun := launchSteps_eq_ok s block (rounds + 2) hvalid hkernel hreading m
  -- the same launch with sums that are known
  have hknown : ∀ t : ThreadStep, ∀ m : ReductionCell → Option M,
      reduceStep block rounds (fun _ _ => .ok 0) (fun t => .ok (some (sums (t.sharedIdx block))))
        (fun _ _ a => .ok a) t m = .ok (if ReduceActive block rounds t then
          some (reduceAddr block rounds (fun _ _ => 0) t,
            reduceVal block rounds (fun _ _ => sums) (fun _ _ a => a) t m)
        else none) :=
    fun t m => reduceStep_eq rounds rfl (fun _ => rfl) rfl m
  obtain ⟨m', hfirst, htotal⟩ : ∃ m', launchSteps s ⟨1, 1⟩ block (rounds + 2)
      (reduceStep block rounds (fun _ _ => .ok 0) (fun t => .ok (some (sums (t.sharedIdx block))))
        fun _ _ a => .ok a) m = .ok m' ∧
      ∀ blockX < 1, ∀ blockY < 1,
        m' (.result 0) = some (∑ i ∈ Finset.range (2 ^ rounds), sums i) :=
    exists_launchReduce s ⟨1, 1⟩ block rounds (fun _ _ => 0) (fun _ _ => sums) (fun _ _ a => a)
      hvalid hsize hinj (fun t _ _ _ _ => ⟨rfl, fun _ => rfl, rfl⟩) m
  have hrun' := launchSteps_eq_ok s block (rounds + 2) hvalid (fun t _ m => hknown t m)
    (fun t ht t' ht' hne hphase => reduce_unread _ hinj ht ht' hne hphase) m
  rw [← reduceMemory, hfirst] at hrun'
  refine ⟨_, hrun, ?_⟩
  rw [foldl_second hread m hsums, ← Outcome.ok.inj hrun']
  exact htotal 0 Nat.one_pos 0 Nat.one_pos

end Second

end Alus.Lib
