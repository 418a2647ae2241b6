import Alus.TopsarMerge.MergeTiles

/-!
# The source tiles of the merge

For each tile the operator reads, of every sub-swath that it takes pixels from, the rectangle that
the corners of the tile map to. Where there is one sub-swath, the rows are copied from the rounded
place of the first column on; where there are several, every pixel is mapped by itself, with
clamped indices. The columns that are copied reach to the rounded last valid one, which may lie
half a column behind the last sample.
-/

namespace Alus.TopsarMerge

open Alus.Lib

namespace TopsarMergeOperator

section Definitions

variable {T : Type} [Field T] [LinearOrder T] [IsStrictOrderedRing T] [FloorRing T]
  (m : TopsarMergeOperator T)

/-- `GetSourceRectangles`. -/
def getSourceRectangles (firstIndex lastIndex : Nat) (tile : Rectangle) : List Rectangle :=
  (List.range' firstIndex (lastIndex + 1 - firstIndex)).map fun i => m.getSourceRectangle i tile

/-- The sample that a row copy has for a column: that of the first column, and on from there. -/
def copiedSample (i : Nat) (tile : Rectangle) (x : Int) : Int :=
  stdRound (m.samplePos i (max tile.x (m.computeXMin i))) + (x - max tile.x (m.computeXMin i))

/-- There is a rectangle for each sub-swath from the first to the last. The source pixel of every
pixel that is read lies in the rectangle of its sub-swath, and is the one at its position in the
buffer. A copied row has the samples that its columns have by themselves. -/
structure ReadsInside (tile : Rectangle) : Prop where
  rectangles : ∀ firstIndex lastIndex,
    m.findFirstAndLastSubSwathIndices tile = (some firstIndex, some lastIndex) →
      firstIndex ≤ lastIndex ∧
        (m.getSourceRectangles firstIndex lastIndex tile).length = lastIndex - firstIndex + 1
  multiple : ∀ firstIndex lastIndex,
    m.findFirstAndLastSubSwathIndices tile = (some firstIndex, some lastIndex) →
    lastIndex ≠ firstIndex → ∀ x y, tile.Contains x y → ∀ i,
      m.getSubSwathIndex x y (List.range' firstIndex (lastIndex + 1 - firstIndex)) = some i →
      firstIndex ≤ i ∧
        (m.getSourceRectangles firstIndex lastIndex tile)[i - firstIndex]? =
          some (m.getSourceRectangle i tile) ∧
        (m.getSourceRectangle i tile).Contains (m.getSampleIndexInSourceProduct i x)
          (m.getLineIndexInSourceProduct i y) ∧
        m.computeMultipleSubSwathFloat tile firstIndex lastIndex x y =
          .source i (m.getSampleIndexInSourceProduct i x) (m.getLineIndexInSourceProduct i y)
  copied : ∀ i, m.findFirstAndLastSubSwathIndices tile = (some i, some i) →
    ∀ x y, tile.Contains x y → m.Copied i x y →
      (m.getSourceRectangle i tile).Contains (m.copiedSample i tile x)
          (m.getLineIndexInSourceProduct i y) ∧
        m.computeTileInOneSwathFloat tile i x y =
          .source i (m.copiedSample i tile x) (m.getLineIndexInSourceProduct i y) ∧
        m.copiedSample i tile x = m.getSampleIndexInSourceProduct i x

/-- No column that is copied to the tile lies exactly half a column behind the last sample. -/
def NoHalfColumn (tile : Rectangle) : Prop :=
  ∀ i, m.findFirstAndLastSubSwathIndices tile = (some i, some i) →
    ∀ x y, tile.Contains x y → m.Copied i x y →
      m.samplePos i x ≠ ((m.info i).numberOfSamples : T) - 1 / 2

end Definitions

variable {T : Type} [Field T] [LinearOrder T] [IsStrictOrderedRing T] [FloorRing T]
  {m : TopsarMergeOperator T}

/-! ## The sub-swaths of a tile -/

section Found

omit [FloorRing T]

theorem cornerTile_eq (tile : Rectangle) : tile = cornerTile tile.x (tile.x + tile.width - 1)
    tile.y (tile.y + tile.height - 1) := by
  cases tile
  simp only [cornerTile, Rectangle.mk.injEq, true_and]
  omega

omit [IsStrictOrderedRing T] in
theorem findsSubSwaths_tile (m : TopsarMergeOperator T) (tile : Rectangle) :
    m.FindsSubSwaths tile.x (tile.x + tile.width - 1) tile.y (tile.y + tile.height - 1)
      (m.findFirstAndLastSubSwathIndices tile) := by
  have hfinds := m.findFirstAndLastSubSwathIndices_cornerTile tile.x (tile.x + tile.width - 1)
    tile.y (tile.y + tile.height - 1)
  rw [← cornerTile_eq] at hfinds
  exact hfinds

/-- What is found for the corners is not inverted: a sub-swath before the first one that reaches
the last column would have been found at the first column. -/
theorem find_ordered {tile : Rectangle} (hwidth : 0 < tile.width) {f l : Nat}
    (h : m.findFirstAndLastSubSwathIndices tile = (some f, some l)) :
    (f ≤ l ∧ f < m.numberOfSubswaths) ∧ l < m.numberOfSubswaths := by
  have hfinds := findsSubSwaths_tile m tile
  rw [h] at hfinds
  cases hfinds with
  | both hf hfirst hl hlast =>
    refine ⟨⟨?_, hf.1⟩, hl.1⟩
    by_contra hlt
    have hordered := m.ordered l f (not_le.mp hlt) hf.1
    have hcolumns := m.slrTime_mono (show tile.x ≤ tile.x + tile.width - 1 by omega)
    exact hfirst l (not_le.mp hlt) ⟨hl.1,
      ⟨hordered.1.trans hf.2.1.1, hcolumns.trans hl.2.1.2⟩, hl.2.2⟩
  | firstOnly hf hfirst hnone => exact ⟨⟨le_rfl, hf.1⟩, hf.1⟩
  | lastOnly hnone hl hlast => exact ⟨⟨le_rfl, hl.1⟩, hl.1⟩

omit [IsStrictOrderedRing T] in
/-- The sub-swath of a pixel is one of those it is looked for among. -/
theorem getSubSwathIndex_mem {x y : Int} {is : List Nat} {i : Nat}
    (h : m.getSubSwathIndex x y is = some i) : i ∈ is := by
  rw [getSubSwathIndex, subSwathLoop_none] at h
  have hmem : i ∈ is.filter fun i => m.Covers i x y := by
    cases hcovers : is.filter fun i => m.Covers i x y with
    | nil =>
      rw [hcovers] at h
      cases h
    | cons j rest =>
      rw [hcovers] at h
      cases rest with
      | nil =>
        cases h
        exact List.mem_cons_self
      | cons k rest =>
        simp only [chosenSubSwath, List.head?_cons, List.tail_cons] at h
        split at h
        · cases h
          exact List.mem_cons_of_mem j List.mem_cons_self
        · cases h
          exact List.mem_cons_self
  exact (List.mem_filter.mp hmem).1

end Found

/-! ## Samples and lines -/

/-- The rectangle of a tile has the mapped pixels of the tile. -/
theorem contains_mapped (m : TopsarMergeOperator T) (i : Nat) {tile : Rectangle} {x y : Int}
    (h : tile.Contains x y) : (m.getSourceRectangle i tile).Contains
      (m.getSampleIndexInSourceProduct i x) (m.getLineIndexInSourceProduct i y) := by
  obtain ⟨hleft, hright, htop, hbottom⟩ := h
  have hx0 := m.getSampleIndexInSourceProduct_mono i hleft
  have hx1 := m.getSampleIndexInSourceProduct_mono i
    (show x ≤ tile.x + tile.width - 1 by omega)
  have hy0 := m.getLineIndexInSourceProduct_mono i htop
  have hy1 := m.getLineIndexInSourceProduct_mono i
    (show y ≤ tile.y + tile.height - 1 by omega)
  simp only [Rectangle.Contains, getSourceRectangle]
  omega

theorem readSource_of_contains {i : Nat} {rect : Rectangle} {sx sy : Int}
    (h : rect.Contains sx sy) : readSource i rect sx sy = .source i sx sy := by
  obtain ⟨hindex, hcolumn, hline⟩ := Rectangle.flatIndex h
  simp only [readSource]
  rw [if_pos hindex, hcolumn, hline]

/-- Where the copy begins less than half a sample before the first one, its samples are the rounded
places of the columns. -/
theorem copiedSample_eq {i : Nat} (hi : i < m.numberOfSubswaths) (tile : Rectangle) (x : Int) :
    m.copiedSample i tile x = ⌊m.samplePos i x + 1 / 2⌋ := by
  rw [copiedSample, m.samplePos_shift i (max tile.x (m.computeXMin i)) x, Int.floor_add_intCast,
    stdRound_eq_floor (m.neg_half_lt_samplePos hi (le_max_right _ _))]

/-- A copied column is at most half a column behind the last sample. -/
theorem samplePos_le {i : Nat} (hi : i < m.numberOfSubswaths) {x : Int}
    (h : x ≤ m.computeXMax i) :
    m.samplePos i x ≤ ((m.info i).numberOfSamples : T) - 1 / 2 := by
  have hpos := m.targetDeltaSlrTime_pos
  have hcolumn := m.sub_half_le_of_le_computeXMax h
  rw [le_div_iff₀ hpos] at hcolumn
  have hlast := (m.info i).lastValidPixel_le
  rw [(m.info i).slrTimeToLastPixel_eq, m.sameSpacing i hi, mul_div_assoc] at hlast
  have hdelta : (m.info 0).rangePixelSpacing / (lightSpeed : T) = m.targetDeltaSlrTime := rfl
  rw [hdelta] at hlast
  push_cast at hlast
  rw [samplePos, div_le_iff₀ hpos, slrTime]
  linarith

/-- The clamped sample of a copied column is its rounded place, unless that is past the last
sample. -/
theorem copiedSample_eq_iff {i : Nat} (hi : i < m.numberOfSubswaths) (tile : Rectangle) {x : Int}
    (hmin : m.computeXMin i ≤ x) (hmax : x ≤ m.computeXMax i) :
    m.copiedSample i tile x = m.getSampleIndexInSourceProduct i x ↔
      m.samplePos i x ≠ ((m.info i).numberOfSamples : T) - 1 / 2 := by
  have hlow : 0 ≤ m.samplePos i x + 1 / 2 := by
    linarith [m.neg_half_lt_samplePos hi hmin]
  have hfloor : 0 ≤ ⌊m.samplePos i x + 1 / 2⌋ := Int.floor_nonneg.mpr hlow
  have hsamples := (m.info i).samples_pos
  rw [copiedSample_eq hi, getSampleIndexInSourceProduct_eq_clampTo, toInt_of_nonneg hlow]
  by_cases hhalf : m.samplePos i x = ((m.info i).numberOfSamples : T) - 1 / 2
  · refine iff_of_false (fun heq => ?_) fun hne => hne hhalf
    have hend : ⌊m.samplePos i x + 1 / 2⌋ = (m.info i).numberOfSamples := by
      rw [hhalf, sub_add_cancel, Int.floor_intCast]
    have hclamp := (clampTo_mem (show 0 ≤ (m.info i).numberOfSamples - 1 by omega)
      ⌊m.samplePos i x + 1 / 2⌋).2
    omega
  · refine iff_of_true (clampTo_of_mem hfloor ?_).symm hhalf
    have hlt : ⌊m.samplePos i x + 1 / 2⌋ < (m.info i).numberOfSamples := by
      rw [Int.floor_lt]
      linarith [lt_of_le_of_ne (samplePos_le hi hmax) hhalf]
    omega

/-! ## Reading -/

omit [IsStrictOrderedRing T] in
theorem computeTile_of_copied {i : Nat} {tile : Rectangle} {x y : Int} (h : tile.Contains x y)
    (hcopied : m.Copied i x y) :
    m.computeTileInOneSwathFloat tile i x y = readSource i (m.getSourceRectangle i tile)
      (m.copiedSample i tile x) (m.getLineIndexInSourceProduct i y) := by
  obtain ⟨hleft, hright, htop, hbottom⟩ := h
  have hpix : (tile.x ≤ x ∧ x ≤ tile.x + tile.width - 1) ∧
      tile.y ≤ y ∧ y ≤ tile.y + tile.height - 1 := ⟨⟨hleft, by omega⟩, htop, by omega⟩
  have hpath := computeTileInOneSwathFloat_eq (m := m) (i := i) hpix
  rw [if_pos hcopied, ← cornerTile_eq] at hpath
  exact hpath

theorem readsInside_of_noHalfColumn {tile : Rectangle} (hwidth : 0 < tile.width)
    (h : m.NoHalfColumn tile) : m.ReadsInside tile where
  rectangles firstIndex lastIndex hfind := by
    have hordered := (find_ordered hwidth hfind).1.1
    refine ⟨hordered, ?_⟩
    rw [getSourceRectangles, List.length_map, List.length_range']
    omega
  multiple firstIndex lastIndex hfind _ x y hin i hi := by
    have hmem := List.mem_range'_1.mp (getSubSwathIndex_mem hi)
    have hcontains := contains_mapped m i hin
    refine ⟨hmem.1, ?_, hcontains, ?_⟩
    · rw [getSourceRectangles, List.getElem?_map, List.getElem?_range' (by omega),
        Option.map_some, show firstIndex + 1 * (i - firstIndex) = i by omega]
    · rw [computeMultipleSubSwathFloat, hi]
      exact readSource_of_contains hcontains
  copied i hfind x y hin hcopied := by
    have hi := (find_ordered hwidth hfind).2
    have hsample := (copiedSample_eq_iff hi tile hcopied.2.1 hcopied.2.2).mpr
      (h i hfind x y hin hcopied)
    have hcontains := contains_mapped m i hin
    rw [← hsample] at hcontains
    exact ⟨hcontains, (computeTile_of_copied hin hcopied).trans (readSource_of_contains hcontains),
      hsample⟩

end TopsarMergeOperator

/-- Two sub-swaths, of which the first has its last sample at the given column. It has the lines
from 0 to 3, the second one those from 0 to 1. -/
def endingAt (last : ℚ) (hlast : last ≤ 3) : TopsarMergeOperator ℚ where
  numberOfSubswaths := 2
  info i := {
    slrTimeToFirstValidPixel := if i = 0 then 0 else 2
    slrTimeToLastValidPixel := if i = 0 then last else 6
    firstValidLineTime := 0
    lastValidLineTime := if i = 0 then 3 else 1
    firstLineTime := 0
    lastLineTime := 3
    azimuthTimeInterval := 1
    slrTimeToFirstPixel := if i = 0 then last - 3 else 2
    slrTimeToLastPixel := if i = 0 then last else 6
    numberOfSamples := if i = 0 then 4 else 5
    numberOfLines := 4
    rangePixelSpacing := 299792458
    interval_pos := unitInterval_pos
    spacing_pos := unitSpacing_pos
    samples_pos := by split <;> norm_num
    lines_pos := fourLines_pos
    firstLineTime_le := Rat.le_refl
    lastValidLineTime_le := by split <;> norm_num
    firstPixel_le := by split <;> linarith
    lastValidPixel_le := le_refl _
    slrTimeToLastPixel_eq := by split <;> norm_num [lightSpeed] }
  subswaths_pos := Nat.two_pos
  ordered i j hij hj := by
    obtain rfl : i = 0 := by omega
    obtain rfl : j = 1 := by omega
    exact ⟨by norm_num, by norm_num; linarith⟩
  sameSpacing _ _ := rfl

namespace TopsarMergeOperator

end TopsarMergeOperator

end Alus.TopsarMerge
