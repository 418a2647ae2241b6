import Alus.Lib.Sampling
import Alus.TopsarMerge.MergeTiles

/-!
# The size of the merged raster

`ComputeTargetWidthAndHeight` of `topsar_merge_utils.cc` divides the time from the first to the last
line by the line time interval and truncates the quotient, and likewise for the columns. The number
of samples of a closed interval is one more. `TOPSARDeburstOp::ComputeTargetWidthAndHeight` adds the
one and rounds.

When the sub-swaths lie on common grids, the rasters that have a line for every source line and a
column for every source sample are those that are larger than the merged raster in both
directions.
-/

namespace Alus.TopsarMerge

open Alus.Lib

variable {T : Type} [Field T] [LinearOrder T]

namespace SubSwathMergeInfo

variable (info : SubSwathMergeInfo T)

/-- The time of a line of the sub-swath. -/
def lineTime (line : Nat) : T := info.firstLineTime + (line : T) * info.azimuthTimeInterval

/-- The slant range time of a sample of the sub-swath. -/
def slrTime (sample : Nat) : T :=
  info.slrTimeToFirstPixel + (sample : T) * (info.rangePixelSpacing / (lightSpeed : T))

end SubSwathMergeInfo

namespace TopsarMergeOperator

section Definitions

variable (m : TopsarMergeOperator T)

/-- The sub-swaths share the line time interval, and their lines and samples lie on grids that they
share. The times of the last line and of the first and the last valid pixel are those of a line and
of samples. -/
structure CommonGrids : Prop where
  sameInterval : ∀ i < m.numberOfSubswaths,
    (m.info i).azimuthTimeInterval = (m.info 0).azimuthTimeInterval
  firstLine : ∀ i < m.numberOfSubswaths, ∃ k : Int,
    (m.info i).firstLineTime = (m.info 0).firstLineTime + (k : T) * m.targetLineTimeInterval
  lastLine : ∀ i < m.numberOfSubswaths, ∃ line : Nat,
    (m.info i).lastLineTime = (m.info i).lineTime line
  firstPixel : ∀ i < m.numberOfSubswaths, ∃ k : Int,
    (m.info i).slrTimeToFirstPixel =
      (m.info 0).slrTimeToFirstPixel + (k : T) * m.targetDeltaSlrTime
  firstValidPixel : ∀ i < m.numberOfSubswaths, ∃ sample : Nat,
    (m.info i).slrTimeToFirstValidPixel = (m.info i).slrTime sample
  lastValidPixel : ∀ i < m.numberOfSubswaths, ∃ sample : Nat,
    (m.info i).slrTimeToLastValidPixel = (m.info i).slrTime sample

/-- Every source line has a line of the same time in a raster of the given height. -/
def CoversLines (height : Int) : Prop :=
  ∀ i < m.numberOfSubswaths, ∀ line : Nat,
    (m.info i).lineTime line ≤ (m.info i).lastLineTime →
      ∃ y, 0 ≤ y ∧ y < height ∧ m.lineTime y = (m.info i).lineTime line

/-- Every sample from the first valid one of the first sub-swath to the last valid one of the last
sub-swath has a column of the same time in a raster of the given width. -/
def CoversSamples (width : Int) : Prop :=
  ∀ i < m.numberOfSubswaths, ∀ sample : Nat, (sample : Int) < (m.info i).numberOfSamples →
    m.targetSlrTimeToFirstPixel ≤ (m.info i).slrTime sample →
    (m.info i).slrTime sample ≤ m.targetSlrTimeToLastPixel →
      ∃ x, 0 ≤ x ∧ x < width ∧ m.slrTime x = (m.info i).slrTime sample

/-- The raster has a place for every source pixel. -/
def CoversSource (height width : Int) : Prop := m.CoversLines height ∧ m.CoversSamples width

variable [FloorRing T]

/-- The height as `TOPSARDeburstOp::ComputeTargetWidthAndHeight` computes it. -/
def deburstHeight : Int :=
  stdRound ((m.targetLastLineTime - m.targetFirstLineTime) / m.targetLineTimeInterval + 1)

/-- The width as `TOPSARDeburstOp::ComputeTargetWidthAndHeight` computes it. -/
def deburstWidth : Int :=
  stdRound ((m.targetSlrTimeToLastPixel - m.targetSlrTimeToFirstPixel) / m.targetDeltaSlrTime + 1)

end Definitions

variable {m : TopsarMergeOperator T}

/-! ## The first and the last line -/

theorem targetFirstLineTime_eq : m.targetFirstLineTime =
    ((List.range m.numberOfSubswaths).map fun i => (m.info i).firstLineTime).foldl min
      (m.info 0).firstLineTime := by
  have hmin : ∀ t b : T, min t b = if t > b then b else t := fun t b => by
    rw [min_comm, min_def_lt]
  rw [List.foldl_map]
  simp only [hmin]
  rfl

theorem targetLastLineTime_eq : m.targetLastLineTime =
    ((List.range m.numberOfSubswaths).map fun i => (m.info i).lastLineTime).foldl max
      (m.info 0).lastLineTime := by
  rw [List.foldl_map]
  simp only [max_def_lt]
  rfl

theorem targetFirstLineTime_le {i : Nat} (hi : i < m.numberOfSubswaths) :
    m.targetFirstLineTime ≤ (m.info i).firstLineTime :=
  (le_foldl_min.mp m.targetFirstLineTime_eq.le).2 _
    (List.mem_map_of_mem (List.mem_range.mpr hi))

theorem le_targetLastLineTime {i : Nat} (hi : i < m.numberOfSubswaths) :
    (m.info i).lastLineTime ≤ m.targetLastLineTime :=
  (foldl_max_le.mp m.targetLastLineTime_eq.ge).2 _ (List.mem_map_of_mem (List.mem_range.mpr hi))

theorem targetFirstLineTime_attained :
    ∃ i < m.numberOfSubswaths, m.targetFirstLineTime = (m.info i).firstLineTime := by
  rw [targetFirstLineTime_eq]
  cases foldl_choice (min_choice (α := T)) with
  | inl hfirst => exact ⟨0, m.subswaths_pos, hfirst⟩
  | inr hmem =>
    obtain ⟨i, hi, heq⟩ := List.mem_map.mp hmem
    exact ⟨i, List.mem_range.mp hi, heq.symm⟩

theorem targetLastLineTime_attained :
    ∃ i < m.numberOfSubswaths, m.targetLastLineTime = (m.info i).lastLineTime := by
  rw [targetLastLineTime_eq]
  cases foldl_choice (max_choice (α := T)) with
  | inl hfirst => exact ⟨0, m.subswaths_pos, hfirst⟩
  | inr hmem =>
    obtain ⟨i, hi, heq⟩ := List.mem_map.mp hmem
    exact ⟨i, List.mem_range.mp hi, heq.symm⟩

variable [IsStrictOrderedRing T]

/-- A line of a sub-swath is on the grid of the lines of the raster, at or after its first one. -/
theorem CommonGrids.exists_line (hgrids : m.CommonGrids) {i : Nat} (hi : i < m.numberOfSubswaths)
    (line : Nat) : ∃ y : Int, 0 ≤ y ∧ (m.info i).lineTime line = m.lineTime y := by
  obtain ⟨j, hj, htarget⟩ := m.targetFirstLineTime_attained
  obtain ⟨kj, hkj⟩ := hgrids.firstLine j hj
  obtain ⟨ki, hki⟩ := hgrids.firstLine i hi
  have horder : kj ≤ ki := by
    have hle := m.targetFirstLineTime_le hi
    rw [htarget, hkj, hki] at hle
    exact (grid_le_iff m.targetLineTimeInterval_pos).mp hle
  refine ⟨ki - kj + line, by omega, ?_⟩
  show (m.info i).firstLineTime + (line : T) * (m.info i).azimuthTimeInterval = _
  rw [hgrids.sameInterval i hi, lineTime, htarget, hkj, hki]
  show _ + _ * m.targetLineTimeInterval = _
  push_cast
  ring

/-- The last line of the raster is on the grid, and `targetHeight` is its index. -/
theorem CommonGrids.lineTime_targetHeight [FloorRing T] (hgrids : m.CommonGrids) :
    m.lineTime m.targetHeight = m.targetLastLineTime := by
  obtain ⟨i, hi, htarget⟩ := m.targetLastLineTime_attained
  obtain ⟨line, hline⟩ := hgrids.lastLine i hi
  obtain ⟨y, -, hy⟩ := hgrids.exists_line hi line
  have hlast : m.targetLastLineTime = m.lineTime y := by rw [htarget, hline, hy]
  rw [targetHeight, grid_steps m.targetLineTimeInterval_pos hlast, toInt_intCast, hlast]

/-- The rasters that lose no line are higher than the merged one. -/
theorem CommonGrids.coversLines_iff [FloorRing T] (hgrids : m.CommonGrids) (height : Int) :
    m.CoversLines height ↔ m.targetHeight < height := by
  have hlast := hgrids.lineTime_targetHeight
  rw [← covers_iff m.targetFirstLineTime m.targetLineTimeInterval_pos (fun t =>
    ∃ i < m.numberOfSubswaths, ∃ line : Nat,
      t = (m.info i).lineTime line ∧ t ≤ (m.info i).lastLineTime)]
  · constructor
    · rintro hcovers t ⟨i, hi, line, rfl, hle⟩
      exact hcovers i hi line hle
    · intro hcovers i hi line hle
      exact hcovers _ ⟨i, hi, line, rfl, hle⟩
  -- the last line is one of the sub-swath that ends last
  · obtain ⟨i, hi, htarget⟩ := m.targetLastLineTime_attained
    obtain ⟨line, hline⟩ := hgrids.lastLine i hi
    refine ⟨i, hi, line, ?_, ?_⟩
    · exact hlast.trans (htarget.trans hline)
    · exact (hlast.trans htarget).le
  · rintro t ⟨i, hi, line, rfl, hle⟩
    refine ⟨(hle.trans (m.le_targetLastLineTime hi)).trans_eq hlast.symm, ?_⟩
    exact hgrids.exists_line hi line

/-! ## The first and the last column -/

omit [IsStrictOrderedRing T] in
/-- A sample of a sub-swath is on the grid of the columns of the raster. -/
theorem CommonGrids.exists_column (hgrids : m.CommonGrids) {i : Nat}
    (hi : i < m.numberOfSubswaths) (sample : Nat) :
    ∃ x : Int, (m.info i).slrTime sample = m.slrTime x := by
  obtain ⟨k, hk⟩ := hgrids.firstPixel i hi
  obtain ⟨first, hfirst⟩ := hgrids.firstValidPixel 0 m.subswaths_pos
  refine ⟨k + sample - first, ?_⟩
  show (m.info i).slrTimeToFirstPixel + (sample : T) * ((m.info i).rangePixelSpacing / _) = _
  rw [m.sameSpacing i hi, hk, slrTime, targetSlrTimeToFirstPixel, hfirst]
  show _ + _ * m.targetDeltaSlrTime = (_ + _ * m.targetDeltaSlrTime) + _
  push_cast
  ring

/-- The last valid pixel is on the grid, and `targetWidth` is its index. -/
theorem CommonGrids.slrTime_targetWidth [FloorRing T] (hgrids : m.CommonGrids) :
    m.slrTime m.targetWidth = m.targetSlrTimeToLastPixel := by
  have hi : m.numberOfSubswaths - 1 < m.numberOfSubswaths :=
    Nat.sub_lt m.subswaths_pos Nat.one_pos
  obtain ⟨sample, hsample⟩ := hgrids.lastValidPixel _ hi
  obtain ⟨x, hx⟩ := hgrids.exists_column hi sample
  have hlast : m.targetSlrTimeToLastPixel = m.slrTime x := hsample.trans hx
  rw [targetWidth, grid_steps m.targetDeltaSlrTime_pos hlast, toInt_intCast, hlast]

/-- The last valid pixel is one of the samples of its sub-swath. -/
theorem sample_lt_of_lastValidPixel {i sample : Nat} (hi : i < m.numberOfSubswaths)
    (hsample : (m.info i).slrTimeToLastValidPixel = (m.info i).slrTime sample) :
    (sample : Int) < (m.info i).numberOfSamples := by
  have hle := (m.info i).lastValidPixel_le
  rw [hsample, (m.info i).slrTimeToLastPixel_eq, mul_div_assoc, m.sameSpacing i hi] at hle
  unfold SubSwathMergeInfo.slrTime at hle
  rw [m.sameSpacing i hi, ← Int.cast_natCast] at hle
  have hindex := (grid_le_iff m.targetDeltaSlrTime_pos).mp hle
  omega

/-- The rasters that lose no valid sample are wider than the merged one. -/
theorem CommonGrids.coversSamples_iff [FloorRing T] (hgrids : m.CommonGrids)
    (hvalid : m.targetSlrTimeToFirstPixel ≤ m.targetSlrTimeToLastPixel) (width : Int) :
    m.CoversSamples width ↔ m.targetWidth < width := by
  have hlast := hgrids.slrTime_targetWidth
  rw [← covers_iff m.targetSlrTimeToFirstPixel m.targetDeltaSlrTime_pos (fun t =>
    m.targetSlrTimeToFirstPixel ≤ t ∧ t ≤ m.targetSlrTimeToLastPixel ∧
      ∃ i < m.numberOfSubswaths, ∃ sample : Nat,
        (sample : Int) < (m.info i).numberOfSamples ∧ t = (m.info i).slrTime sample)]
  · constructor
    · rintro hcovers t ⟨hfirst, hle, i, hi, sample, hlt, rfl⟩
      exact hcovers i hi sample hlt hfirst hle
    · intro hcovers i hi sample hlt hfirst hle
      exact hcovers _ ⟨hfirst, hle, i, hi, sample, hlt, rfl⟩
  -- the last valid pixel is a sample of the last sub-swath
  · have hi : m.numberOfSubswaths - 1 < m.numberOfSubswaths :=
      Nat.sub_lt m.subswaths_pos Nat.one_pos
    obtain ⟨sample, hsample⟩ := hgrids.lastValidPixel _ hi
    refine ⟨hvalid.trans_eq hlast.symm, hlast.le, _, hi, sample, ?_, hlast.trans hsample⟩
    exact sample_lt_of_lastValidPixel hi hsample
  · rintro t ⟨hfirst, hle, i, hi, sample, hlt, rfl⟩
    obtain ⟨x, hx⟩ := hgrids.exists_column hi sample
    refine ⟨hle.trans_eq hlast.symm, x, ?_, hx⟩
    -- the column of index zero is the first valid pixel
    have hzero : m.slrTime 0 ≤ m.slrTime x := by
      rw [← hx, slrTime, Int.cast_zero, zero_mul, add_zero]
      exact hfirst
    exact (grid_le_iff m.targetDeltaSlrTime_pos).mp hzero

/-! ## The two sizes -/

variable [FloorRing T]

/-- The rasters that lose no source pixel are larger than the merged one in both directions. -/
theorem CommonGrids.coversSource_iff (hgrids : m.CommonGrids)
    (hvalid : m.targetSlrTimeToFirstPixel ≤ m.targetSlrTimeToLastPixel) (height width : Int) :
    m.CoversSource height width ↔ m.targetHeight < height ∧ m.targetWidth < width :=
  and_congr (hgrids.coversLines_iff height) (hgrids.coversSamples_iff hvalid width)

theorem CommonGrids.deburstHeight_eq (hgrids : m.CommonGrids) :
    m.deburstHeight = m.targetHeight + 1 := by
  rw [deburstHeight, grid_steps m.targetLineTimeInterval_pos hgrids.lineTime_targetHeight.symm]
  exact_mod_cast stdRound_intCast (T := T) (m.targetHeight + 1)

theorem CommonGrids.deburstWidth_eq (hgrids : m.CommonGrids) :
    m.deburstWidth = m.targetWidth + 1 := by
  rw [deburstWidth, grid_steps m.targetDeltaSlrTime_pos hgrids.slrTime_targetWidth.symm]
  exact_mod_cast stdRound_intCast (T := T) (m.targetWidth + 1)

/-- The size of the deburst operator is the smallest that loses no source pixel. -/
theorem CommonGrids.coversSource_deburst (hgrids : m.CommonGrids)
    (hvalid : m.targetSlrTimeToFirstPixel ≤ m.targetSlrTimeToLastPixel) :
    m.CoversSource m.deburstHeight m.deburstWidth := by
  rw [hgrids.coversSource_iff hvalid, hgrids.deburstHeight_eq, hgrids.deburstWidth_eq]
  exact ⟨Int.lt_succ m.targetHeight, Int.lt_succ m.targetWidth⟩

/-- The merged raster has no line for the last source line, whatever the sub-swaths are. -/
theorem not_coversSource (hgrids : m.CommonGrids) :
    ¬ m.CoversSource m.targetHeight m.targetWidth := fun hcovers =>
  lt_irrefl m.targetHeight ((hgrids.coversLines_iff m.targetHeight).mp hcovers.1)

end TopsarMergeOperator

/-! ## Two sub-swaths -/

theorem commonGrids_twoSubSwaths : (twoSubSwaths 3 le_rfl).CommonGrids where
  sameInterval i _ := rfl
  firstLine i _ := ⟨0, by simp [twoSubSwaths]⟩
  lastLine i _ := ⟨3, by norm_num [twoSubSwaths, SubSwathMergeInfo.lineTime]⟩
  firstPixel i _ := ⟨3 * i, by
    norm_num [twoSubSwaths, TopsarMergeOperator.targetDeltaSlrTime, lightSpeed]⟩
  firstValidPixel i _ := ⟨0, by norm_num [twoSubSwaths, SubSwathMergeInfo.slrTime]⟩
  lastValidPixel i _ := ⟨3, by
    norm_num [twoSubSwaths, SubSwathMergeInfo.slrTime, lightSpeed]⟩

/-- Of the four lines of two sub-swaths the merged raster has three. -/
theorem not_coversSource_twoSubSwaths : ¬ (twoSubSwaths 3 le_rfl).CoversSource
    (twoSubSwaths 3 le_rfl).targetHeight (twoSubSwaths 3 le_rfl).targetWidth :=
  TopsarMergeOperator.not_coversSource commonGrids_twoSubSwaths

/-- The line at time 3 has no line among the three of the merged raster. -/
theorem twoSubSwaths_loses_lastLine : (twoSubSwaths 3 le_rfl).CommonGrids ∧
    ¬ (twoSubSwaths 3 le_rfl).CoversSource
      (twoSubSwaths 3 le_rfl).targetHeight (twoSubSwaths 3 le_rfl).targetWidth := by
  refine ⟨commonGrids_twoSubSwaths, fun hcovers => ?_⟩
  have hline : ((twoSubSwaths 3 le_rfl).info 0).lineTime 3 = 3 := by
    norm_num [twoSubSwaths, SubSwathMergeInfo.lineTime]
  obtain ⟨y, -, hy, htime⟩ := hcovers.1 0 Nat.two_pos 3 hline.le
  rw [twoSubSwaths_lineTime, hline] at htime
  rw [twoSubSwaths_height] at hy
  have hthree : y = 3 := by exact_mod_cast htime
  omega

end Alus.TopsarMerge
