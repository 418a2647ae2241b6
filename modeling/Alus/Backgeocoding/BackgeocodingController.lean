import Alus.Lib.Loop
import Alus.Lib.Splits

/-!
# The workers of the backgeocoding controller

`BackgeocodingController::DoWork` cuts every burst into areas of whole lines, one for a worker. The
width of an area is the quotient of a recommended area and the lines of a burst, and also what the
loop over the samples advances by: with more lines than the recommended area has pixels it is zero,
and the loop does not advance.
-/

namespace Alus.Backgeocoding

open Alus.Lib

/-! ## The loops -/

structure WorkerParams where
  index : Int
  masterInputArea : Rectangle
  masterBurstIndex : Int
  slaveBurstIndex : Int
  deriving DecidableEq, Repr

structure BackgeocodingController where
  numOfBursts : PositiveInt
  linesPerBurst : PositiveInt
  samplesPerBurst : PositiveInt

/-- The variables of the loops. Inside the loop over the samples these are also `first_line_idx` and
`sample_index`. -/
structure WorkLoop where
  burstIndex : Int
  samples : Option (Int × Int)
  index : Int
  workerCount : Int
  workers : List WorkerParams
  deriving DecidableEq, Repr

namespace BackgeocodingController

variable (c : BackgeocodingController) (slaveBurstOffset : Int)

/-- `recommended_tile_area_`. -/
def recommendedTileArea : Int := 4000000

def recommendedWidth : Int := recommendedTileArea.tdiv c.linesPerBurst

/-- A pass of the loop over the samples, of a burst's loop before and after it, or the end. -/
def pass (s : WorkLoop) : Outcome (Pass WorkLoop (List WorkerParams)) :=
  match s.samples with
  | none =>
    if s.burstIndex < c.numOfBursts then do
      let firstLineIdx ← int32 (s.burstIndex * c.linesPerBurst)
      return .next { s with samples := some (firstLineIdx, 0) }
    else return .done s.workers
  | some (firstLineIdx, sampleIndex) =>
    if sampleIndex < c.samplesPerBurst then do
      let next ← int32 (sampleIndex + c.recommendedWidth)
      let actualWidth :=
        if next < c.samplesPerBurst then c.recommendedWidth else c.samplesPerBurst - sampleIndex
      let index ← int32 (s.index + 1)
      let slaveBurstIndex ← int32 (s.burstIndex + slaveBurstOffset)
      let workerCount ← int32 (s.workerCount + 1)
      return .next {
        burstIndex := s.burstIndex
        samples := some (firstLineIdx, next)
        index := index
        workerCount := workerCount
        workers := s.workers ++ [⟨index, ⟨sampleIndex, firstLineIdx, actualWidth, c.linesPerBurst⟩,
          s.burstIndex, slaveBurstIndex⟩] }
    else do
      let burstIndex ← int32 (s.burstIndex + 1)
      return .next { s with burstIndex := burstIndex, samples := none }

/-- Before the loop over the bursts. -/
def start : WorkLoop := ⟨0, none, 0, 0, []⟩

/-- The areas of a burst among those of the workers. -/
def masterAreas (workers : List WorkerParams) (burstIndex : Int) : List Rectangle :=
  (workers.filter fun w => w.masterBurstIndex = burstIndex).map (·.masterInputArea)

/-- The loops end, and the areas of each burst partition its lines and samples. -/
def CoversBursts : Prop :=
  ∃ workers, EndsWith (c.pass slaveBurstOffset) start workers ∧
    ∀ burstIndex, 0 ≤ burstIndex → burstIndex < c.numOfBursts.1 →
      PartitionsArea ⟨0, burstIndex * c.linesPerBurst, c.samplesPerBurst, c.linesPerBurst⟩
        (masterAreas workers burstIndex)

/-! ## Areas of some width -/

/-- The areas of a burst: its samples by the width, rounded up. -/
def areaCount : Int := (c.samplesPerBurst + c.recommendedWidth - 1) / c.recommendedWidth

/-- No value of the loops leaves the range of `int`. -/
structure NoOverflow : Prop where
  samples : c.recommendedWidth * c.areaCount < 2147483648
  lines : (c.numOfBursts.1 - 1) * c.linesPerBurst < 2147483648
  workers : c.numOfBursts * c.areaCount < 2147483648
  slave : -2147483648 ≤ slaveBurstOffset ∧ c.numOfBursts.1 - 1 + slaveBurstOffset < 2147483648

/-- The worker of an area. -/
def worker (k j : Int) : WorkerParams :=
  ⟨k * c.areaCount + j + 1, ⟨c.recommendedWidth * j, k * c.linesPerBurst,
    if j = c.areaCount - 1 then c.samplesPerBurst - c.recommendedWidth * j else c.recommendedWidth,
    c.linesPerBurst⟩, k, k + slaveBurstOffset⟩

def burstWorkers (k : Int) : List WorkerParams :=
  (intRange 0 c.areaCount).map (c.worker slaveBurstOffset k)

/-- The loop over the bursts comes to a burst. -/
def atBurst (k : Int) : WorkLoop :=
  ⟨k, none, k * c.areaCount, k * c.areaCount,
    (intRange 0 k).flatMap (c.burstWorkers slaveBurstOffset)⟩

/-- The loop over the samples of a burst comes to an area. -/
def atArea (k j : Int) : WorkLoop :=
  ⟨k, some (k * c.linesPerBurst, c.recommendedWidth * j), k * c.areaCount + j,
    k * c.areaCount + j, (intRange 0 k).flatMap (c.burstWorkers slaveBurstOffset) ++
      (intRange 0 j).map (c.worker slaveBurstOffset k)⟩

/-- The values of a pass over an area. -/
structure AreaFits (k j : Int) : Prop where
  next : Fits 32 (c.recommendedWidth * j + c.recommendedWidth)
  index : Fits 32 (k * c.areaCount + j + 1)
  slave : Fits 32 (k + slaveBurstOffset)

/-- The values of the passes over a burst. -/
structure BurstFits (k : Int) : Prop where
  lines : Fits 32 (k * c.linesPerBurst)
  areas : ∀ j ∈ intRange 0 c.areaCount, c.AreaFits slaveBurstOffset k j

section Passes

variable {c slaveBurstOffset} {k j : Int} {r : List WorkerParams}
  (hwidth : 0 < c.recommendedWidth)

include hwidth in
/-- The last area begins in the burst and reaches its end. -/
theorem areaCount_bounds : 1 ≤ c.areaCount ∧
    c.recommendedWidth * (c.areaCount - 1) < c.samplesPerBurst ∧
    c.samplesPerBurst ≤ c.recommendedWidth * c.areaCount := by
  have hsamples := c.samplesPerBurst.2.1
  have hdiv := Int.mul_ediv_add_emod (c.samplesPerBurst + c.recommendedWidth - 1) c.recommendedWidth
  have hmod := Int.emod_lt_of_pos (c.samplesPerBurst + c.recommendedWidth - 1) hwidth
  have hmod0 := Int.emod_nonneg (c.samplesPerBurst + c.recommendedWidth - 1) hwidth.ne'
  have hcount : 1 ≤ c.areaCount := by
    rw [areaCount, Int.le_ediv_iff_mul_le hwidth]
    omega
  rw [← areaCount] at hdiv
  rw [Int.mul_sub, Int.mul_one]
  exact ⟨hcount, by omega, by omega⟩

theorem endsWith_atBurst (hk : k < c.numOfBursts) :
    EndsWith (c.pass slaveBurstOffset) (c.atBurst slaveBurstOffset k) r ↔
      Fits 32 (k * c.linesPerBurst) ∧
        EndsWith (c.pass slaveBurstOffset) (c.atArea slaveBurstOffset k 0) r := by
  apply endsWith_check
  · intro hfits
    simp only [pass, atBurst, atArea, if_pos hk, int32_of_fits hfits, Outcome.ok_bind,
      Outcome.pure_eq, Int.mul_zero, Int.add_zero, intRange_eq_nil (le_refl (0 : Int)),
      List.map_nil, List.append_nil]
  · intro hfits
    simp only [pass, atBurst, if_pos hk, int32_of_not_fits hfits, Outcome.undefined_bind]

include hwidth in
/-- All areas but the last have the recommended width. -/
theorem actualWidth_eq (hj : j < c.areaCount) :
    (if c.recommendedWidth * j + c.recommendedWidth < c.samplesPerBurst then c.recommendedWidth
      else c.samplesPerBurst - c.recommendedWidth * j) =
      if j = c.areaCount - 1 then c.samplesPerBurst - c.recommendedWidth * j
        else c.recommendedWidth := by
  obtain ⟨_, hlast, hend⟩ := areaCount_bounds hwidth
  by_cases hfinal : j = c.areaCount - 1
  · have hnext : c.recommendedWidth * (j + 1) = c.recommendedWidth * c.areaCount := by
      rw [hfinal, Int.sub_add_cancel]
    rw [Int.mul_add, Int.mul_one] at hnext
    rw [if_neg (by omega), if_pos hfinal]
  · have hnext : c.recommendedWidth * (j + 1) ≤ c.recommendedWidth * (c.areaCount - 1) :=
      Int.mul_le_mul_of_nonneg_left (by omega) hwidth.le
    rw [Int.mul_add, Int.mul_one] at hnext
    rw [if_pos (by omega), if_neg hfinal]

include hwidth in
/-- The step of the loop over the samples. -/
theorem endsWith_atArea (hj0 : 0 ≤ j) (hj : j < c.areaCount) :
    EndsWith (c.pass slaveBurstOffset) (c.atArea slaveBurstOffset k j) r ↔
      c.AreaFits slaveBurstOffset k j ∧
        EndsWith (c.pass slaveBurstOffset) (c.atArea slaveBurstOffset k (j + 1)) r := by
  have hlast := (areaCount_bounds hwidth).2.1
  have hmono : c.recommendedWidth * j ≤ c.recommendedWidth * (c.areaCount - 1) :=
    Int.mul_le_mul_of_nonneg_left (by omega) hwidth.le
  have hin : c.recommendedWidth * j < c.samplesPerBurst := by omega
  apply endsWith_check
  · intro hfits
    simp only [pass, atArea, if_pos hin, int32_of_fits hfits.next, int32_of_fits hfits.index,
      int32_of_fits hfits.slave, Outcome.ok_bind, Outcome.pure_eq, actualWidth_eq hwidth hj]
    have hworkers : (intRange 0 (j + 1)).map (c.worker slaveBurstOffset k) =
        (intRange 0 j).map (c.worker slaveBurstOffset k) ++ [c.worker slaveBurstOffset k j] := by
      rw [intRange_succ hj0, List.map_append, List.map_singleton]
    rw [hworkers, ← List.append_assoc, Int.mul_add, Int.mul_one, ← Int.add_assoc]
    rfl
  · intro hfits
    simp only [pass, atArea, if_pos hin]
    by_cases hnext : Fits 32 (c.recommendedWidth * j + c.recommendedWidth)
    · rw [int32_of_fits hnext, Outcome.ok_bind]
      by_cases hindex : Fits 32 (k * c.areaCount + j + 1)
      · rw [int32_of_fits hindex, Outcome.ok_bind]
        have hslave : ¬ Fits 32 (k + slaveBurstOffset) := fun h => hfits ⟨hnext, hindex, h⟩
        rw [int32_of_not_fits hslave]
        rfl
      · rw [int32_of_not_fits hindex]
        rfl
    · rw [int32_of_not_fits hnext]
      rfl

include hwidth in
/-- Behind the last area the next burst begins. -/
theorem endsWith_areaEnd (hk0 : 0 ≤ k) (hk : k < c.numOfBursts) :
    EndsWith (c.pass slaveBurstOffset) (c.atArea slaveBurstOffset k c.areaCount) r ↔
      EndsWith (c.pass slaveBurstOffset) (c.atBurst slaveBurstOffset (k + 1)) r := by
  obtain ⟨_, _, hend⟩ := areaCount_bounds hwidth
  have hbursts := c.numOfBursts.2.2
  apply endsWith_next
  have hworkers : (intRange 0 (k + 1)).flatMap (c.burstWorkers slaveBurstOffset) =
      (intRange 0 k).flatMap (c.burstWorkers slaveBurstOffset) ++
        c.burstWorkers slaveBurstOffset k := by
    rw [intRange_succ hk0, List.flatMap_append, List.flatMap_singleton]
  simp only [pass, atArea, if_neg (show ¬ c.recommendedWidth * c.areaCount < c.samplesPerBurst by
    omega), int32_of_fits (fits32_iff.mpr (show _ ∧ k + 1 < 2147483648 by omega)),
    Outcome.ok_bind, Outcome.pure_eq, atBurst, hworkers, Int.add_mul, Int.one_mul]
  rfl

theorem endsWith_end : EndsWith (c.pass slaveBurstOffset)
    (c.atBurst slaveBurstOffset c.numOfBursts) r ↔
      r = (intRange 0 c.numOfBursts).flatMap (c.burstWorkers slaveBurstOffset) := by
  apply endsWith_done
  rw [pass, atBurst]
  exact if_neg (lt_irrefl c.numOfBursts.1)

include hwidth in
/-- The loop over the samples comes to an area when the values of those before it fit. -/
theorem endsWith_areas (n : Nat) (hn : (n : Int) ≤ c.areaCount) :
    EndsWith (c.pass slaveBurstOffset) (c.atArea slaveBurstOffset k 0) r ↔
      (∀ j ∈ intRange 0 n, c.AreaFits slaveBurstOffset k j) ∧
        EndsWith (c.pass slaveBurstOffset) (c.atArea slaveBurstOffset k n) r := by
  induction n with
  | zero => simp [intRange_eq_nil]
  | succ n ih =>
    rw [ih (by omega), endsWith_atArea hwidth (by omega) (by omega), ← and_assoc, Nat.cast_succ,
      intRange_succ (by omega), List.forall_mem_append, List.forall_mem_singleton]

include hwidth in
/-- The loop over the bursts comes to a burst when the values of those before it fit. -/
theorem endsWith_bursts (n : Nat) (hn : (n : Int) ≤ c.numOfBursts) :
    EndsWith (c.pass slaveBurstOffset) start r ↔
      (∀ k ∈ intRange 0 n, c.BurstFits slaveBurstOffset k) ∧
        EndsWith (c.pass slaveBurstOffset) (c.atBurst slaveBurstOffset n) r := by
  induction n with
  | zero => simp [intRange_eq_nil, atBurst, start]
  | succ n ih =>
    obtain ⟨m, hm⟩ := Int.eq_ofNat_of_zero_le
      (show 0 ≤ c.areaCount by have := (areaCount_bounds hwidth).1; omega)
    have hareas := @endsWith_areas c slaveBurstOffset n r hwidth m (le_of_eq hm.symm)
    rw [← hm] at hareas
    rw [ih (by omega), endsWith_atBurst (by omega), hareas, endsWith_areaEnd hwidth (by omega)
      (by omega), Nat.cast_succ, intRange_succ (by omega), List.forall_mem_append,
      List.forall_mem_singleton]
    constructor
    · rintro ⟨hbefore, hlines, hfits, hends⟩
      exact ⟨⟨hbefore, hlines, hfits⟩, hends⟩
    · rintro ⟨⟨hbefore, hlines, hfits⟩, hends⟩
      exact ⟨hbefore, hlines, hfits, hends⟩

include hwidth in
/-- The values of all passes fit when those of the last burst and of the last area do, and those of
the first. -/
theorem burstFits_iff :
    (∀ k ∈ intRange 0 c.numOfBursts, c.BurstFits slaveBurstOffset k) ↔
      c.NoOverflow slaveBurstOffset := by
  obtain ⟨hcount, hlast, hend⟩ := areaCount_bounds hwidth
  have hbursts := c.numOfBursts.2.1
  have hlines := c.linesPerBurst.2.1
  have hindex : (c.numOfBursts.1 - 1) * c.areaCount + (c.areaCount - 1) + 1 =
      c.numOfBursts * c.areaCount := by
    ring
  have hnext : c.recommendedWidth * (c.areaCount - 1) + c.recommendedWidth =
      c.recommendedWidth * c.areaCount := by
    ring
  constructor
  · intro h
    -- the first and the last burst have the extreme values
    have hfirst := h 0 (mem_intRange.mpr ⟨le_refl 0, hbursts⟩)
    have hfinal := h (c.numOfBursts.1 - 1) (mem_intRange.mpr ⟨by omega, by omega⟩)
    have harea : c.areaCount - 1 ∈ intRange 0 c.areaCount := mem_intRange.mpr ⟨by omega, by omega⟩
    have hsamples := fits32_iff.mp (hfinal.areas _ harea).next
    have hworkers := fits32_iff.mp (hfinal.areas _ harea).index
    have hslave := fits32_iff.mp (hfirst.areas _ harea).slave
    have hslave' := fits32_iff.mp (hfinal.areas _ harea).slave
    rw [hnext] at hsamples
    rw [hindex] at hworkers
    exact ⟨hsamples.2, (fits32_iff.mp hfinal.lines).2, hworkers.2, by omega, hslave'.2⟩
  · intro h k hk
    obtain ⟨hk0, hk⟩ := mem_intRange.mp hk
    -- those of the others lie between them
    have hline : k * c.linesPerBurst ≤ (c.numOfBursts.1 - 1) * c.linesPerBurst :=
      Int.mul_le_mul_of_nonneg_right (by omega) hlines.le
    have hline0 : 0 ≤ k * c.linesPerBurst.1 := Int.mul_nonneg hk0 hlines.le
    have hlineEnd := h.lines
    have hslave := h.slave
    refine ⟨fits32_iff.mpr (by omega), fun j hj => ?_⟩
    obtain ⟨hj0, hj⟩ := mem_intRange.mp hj
    have hsample : c.recommendedWidth * j ≤ c.recommendedWidth * (c.areaCount - 1) :=
      Int.mul_le_mul_of_nonneg_left (by omega) hwidth.le
    have hsample0 : 0 ≤ c.recommendedWidth * j := Int.mul_nonneg hwidth.le hj0
    have hworker : k * c.areaCount ≤ (c.numOfBursts.1 - 1) * c.areaCount :=
      Int.mul_le_mul_of_nonneg_right (by omega) (by omega)
    have hworker0 : 0 ≤ k * c.areaCount := Int.mul_nonneg hk0 (by omega)
    have hsampleEnd := h.samples
    have hworkerEnd := h.workers
    exact ⟨fits32_iff.mpr (by omega), fits32_iff.mpr (by omega), fits32_iff.mpr (by omega)⟩

include hwidth in
/-- The run of the loops. -/
theorem endsWith_iff : EndsWith (c.pass slaveBurstOffset) start r ↔
    c.NoOverflow slaveBurstOffset ∧
      r = (intRange 0 c.numOfBursts).flatMap (c.burstWorkers slaveBurstOffset) := by
  obtain ⟨n, hn⟩ := Int.eq_ofNat_of_zero_le c.numOfBursts.2.1.le
  have hrun := @endsWith_bursts c slaveBurstOffset r hwidth n (le_of_eq hn.symm)
  rw [← hn] at hrun
  rw [hrun, burstFits_iff hwidth, endsWith_end]

/-- The first sample of the first burst, or its loop's beginning. -/
def AtFirstSample (s : WorkLoop) : Prop :=
  s.burstIndex = 0 ∧ (s.samples = none ∨ ∃ line, s.samples = some (line, 0))

/-- A width of zero does not advance the loop. -/
theorem pass_of_zero_width (hzero : c.recommendedWidth = 0) {s : WorkLoop}
    (hs : AtFirstSample s) {p : Pass WorkLoop (List WorkerParams)}
    (h : c.pass slaveBurstOffset s = .ok p) : ∃ s', p = .next s' ∧ AtFirstSample s' := by
  have hbursts := c.numOfBursts.2.1
  have hsamples := c.samplesPerBurst.2.1
  obtain ⟨hburst, hsample | ⟨line, hsample⟩⟩ := hs
  · simp only [pass, hsample, hburst, if_pos hbursts, Outcome.bind_eq_ok, Outcome.pure_eq,
      Outcome.ok.injEq] at h
    obtain ⟨line, -, rfl⟩ := h
    exact ⟨_, rfl, rfl, .inr ⟨line, rfl⟩⟩
  · simp only [pass, hsample, if_pos hsamples, hzero, Outcome.bind_eq_ok, Outcome.pure_eq,
      Outcome.ok.injEq, int32_eq_ok] at h
    obtain ⟨next, ⟨-, hnext⟩, index, -, slave, -, count, -, rfl⟩ := h
    exact ⟨_, rfl, hburst, .inr ⟨line, by rw [hnext]; rfl⟩⟩

theorem not_endsWith (hzero : c.recommendedWidth = 0) :
    ¬ EndsWith (c.pass slaveBurstOffset) start r := by
  rintro ⟨passes, hrun⟩
  have hkeep : ∀ s s', AtFirstSample s → c.pass slaveBurstOffset s = .ok (.next s') →
      AtFirstSample s' := fun s s' hs hnext => by
    obtain ⟨t, ht, hfirst⟩ := pass_of_zero_width hzero hs hnext
    cases ht
    exact hfirst
  obtain ⟨s, hs, hdone⟩ := runLoop_inv hkeep ⟨rfl, .inl rfl⟩ hrun
  obtain ⟨t, ht, -⟩ := pass_of_zero_width hzero hs hdone
  cases ht

end Passes

/-! ## The areas of the bursts -/

variable {c slaveBurstOffset}

theorem masterBurstIndex_of_mem {k : Int} {w : WorkerParams}
    (h : w ∈ c.burstWorkers slaveBurstOffset k) : w.masterBurstIndex = k := by
  obtain ⟨j, -, rfl⟩ := List.mem_map.mp h
  rfl

/-- The areas of a burst are its pieces of the recommended width, over all of its lines. -/
theorem masterAreas_eq {k : Int} (hk0 : 0 ≤ k) (hk : k < c.numOfBursts) :
    masterAreas ((intRange 0 c.numOfBursts).flatMap (c.burstWorkers slaveBurstOffset)) k =
      gridRectangles (pieces c.samplesPerBurst c.recommendedWidth c.areaCount)
        [(k * c.linesPerBurst, c.linesPerBurst.1)] := by
  have hother : ∀ l : List Int, k ∉ l →
      (l.flatMap (c.burstWorkers slaveBurstOffset)).filter (fun w => w.masterBurstIndex = k) = [] :=
    fun l hl => by
      rw [List.filter_eq_nil_iff]
      intro w hw heq
      obtain ⟨i, hi, hw⟩ := List.mem_flatMap.mp hw
      rw [decide_eq_true_eq, masterBurstIndex_of_mem hw] at heq
      exact hl (heq ▸ hi)
  have hown : (c.burstWorkers slaveBurstOffset k).filter (fun w => w.masterBurstIndex = k) =
      c.burstWorkers slaveBurstOffset k :=
    List.filter_eq_self.mpr fun w hw => decide_eq_true (masterBurstIndex_of_mem hw)
  rw [masterAreas, intRange_append hk0 hk.le, intRange_cons hk, List.flatMap_append,
    List.flatMap_cons, List.filter_append, List.filter_append, hother, hother, hown,
    List.nil_append, List.append_nil, burstWorkers, List.map_map, gridRectangles,
    List.flatMap_singleton, pieces, List.map_map]
  · rfl
  · intro h
    have hlt := (mem_intRange.mp h).1
    omega
  · intro h
    have hlt := (mem_intRange.mp h).2
    omega

/-- The width is zero when a burst has more lines than the recommended area has pixels. -/
theorem recommendedWidth_pos_iff : 0 < c.recommendedWidth ↔ c.linesPerBurst.1 ≤ 4000000 := by
  have hlines := c.linesPerBurst.2.1
  rw [recommendedWidth, recommendedTileArea, Int.tdiv_eq_ediv_of_nonneg (by omega)]
  constructor
  · intro h
    by_contra hlarge
    rw [Int.ediv_eq_zero_of_lt (by omega) (by omega)] at h
    exact lt_irrefl 0 h
  · intro h
    have hone := Int.le_ediv_of_mul_le hlines (show 1 * c.linesPerBurst.1 ≤ 4000000 by omega)
    omega

/-- **When the workers cover the bursts**: the width is not zero, and no value of the loops leaves
the range of `int`. -/
theorem coversBursts_iff (c : BackgeocodingController) (slaveBurstOffset : Int) :
    c.CoversBursts slaveBurstOffset ↔
      c.linesPerBurst.1 ≤ 4000000 ∧ c.NoOverflow slaveBurstOffset := by
  rw [← recommendedWidth_pos_iff]
  constructor
  · rintro ⟨workers, hends, -⟩
    have hwidth : 0 < c.recommendedWidth := by
      by_contra hneg
      have hnonneg : 0 ≤ c.recommendedWidth :=
        Int.tdiv_nonneg (by decide) c.linesPerBurst.2.1.le
      exact not_endsWith (by omega) hends
    exact ⟨hwidth, ((endsWith_iff hwidth).mp hends).1⟩
  · rintro ⟨hwidth, hfits⟩
    refine ⟨_, (endsWith_iff hwidth).mpr ⟨hfits, rfl⟩, fun k hk0 hk => ?_⟩
    rw [masterAreas_eq hk0 hk]
    obtain ⟨hcount, hlast, -⟩ := areaCount_bounds hwidth
    have hpartition := partitionsArea_gridRectangles (splits_pieces hwidth hcount hlast)
      (Splits.single (a := k * c.linesPerBurst) c.linesPerBurst.2.1)
    rw [Int.sub_zero, add_sub_cancel_left] at hpartition
    exact hpartition

/-- One burst of 4000001 lines and one sample. -/
theorem not_coversBursts : ¬ BackgeocodingController.CoversBursts
    ⟨⟨1, by decide⟩, ⟨4000001, by decide⟩, ⟨1, by decide⟩⟩ 0 := by
  rintro ⟨workers, hends, -⟩
  exact not_endsWith (by decide) hends

end BackgeocodingController

end Alus.Backgeocoding
