import Mathlib.Algebra.Group.Nat.Defs
import Alus.Coherence.TileCover
import Alus.Lib.IntRange

/-!
# Windowed sums over the tiles

`SimpleCoherence2DSumKernelSumSurroundings` (`coherence-cuda/src/coherence_computation.cu`) sums
the input tile over the coherence window of each output pixel. It clips the window with the pads
of the tile and reads the tile by a flat index, skipping indices past its end.
`BoolImageForCoherenceProductFiltering` takes the keep flag from the pixel's own sample.

Values are any type with a zero and an addition that respects it, added in the order of the
kernel; nothing is assumed of the addition that rounding would break.
-/

namespace Alus.Coherence

open Alus.Lib

/-! ## The kernels -/

section Kernels

variable {R : Type} [AddZeroClass R]

/-- The input tile in memory: the rectangle of the band, row after row. -/
def tileData {R : Type} (tile : CohTile) (band : Int → Int → R) (idx : Int) : R :=
  band (tile.tileIn.xMin + idx % tile.tileIn.getXSize)
    (tile.tileIn.yMin + idx / tile.tileIn.getXSize)

/-- The first round of a loop over the window: `abs` of a negative start, otherwise `0`. -/
def startRange (idxInputTile : Int) : Int :=
  if idxInputTile < 0 then |idxInputTile| else 0

/-- The end of such a loop: the window, clipped by the pad at the far end. -/
def windowSize (window idx maxPad inputSize : Int) : Int :=
  if idx + maxPad > inputSize - 1 then window + (inputSize - 1 - (idx + maxPad)) else window

/-- `SimpleCoherence2DSumKernelSumSurroundings` at one output pixel of the tile, as
`LaunchCoherence` calls it. -/
def sumSurroundings (cohWindowRg cohWindowAz : Int) (tile : CohTile) (band : Int → Int → R)
    (columnIdx rowIdx : Int) : R :=
  let inputTileWidth := tile.tileIn.getXSize
  let inputTileHeight := tile.tileIn.getYSize
  let columnIdxInputTile := columnIdx - tile.xMinPad
  let rowIdxInputTile := rowIdx - tile.yMinPad
  let cohWindowRgSize := windowSize cohWindowRg columnIdx tile.xMaxPad inputTileWidth
  let cohWindowAzSize := windowSize cohWindowAz rowIdx tile.yMaxPad inputTileHeight
  (intRange (startRange rowIdxInputTile) cohWindowAzSize).foldl (fun pixelValue i =>
    pixelValue + (intRange (startRange columnIdxInputTile) cohWindowRgSize).foldl (fun acc j =>
      let idx := (rowIdxInputTile + i) * inputTileWidth + (columnIdxInputTile + j)
      -- the index is tested against the whole tile only, not against its row
      if idx < inputTileWidth * inputTileHeight then acc + tileData tile band idx else acc) 0) 0

/-- `BoolImageForCoherenceProductFiltering` at one output pixel. `keeps` is the comparison of the
sample with zero, `isFinite` the test of the ETAD sample, when there is one. -/
def boolImage {S : Type} (cohWindowRg cohWindowAz : Int) (tile : CohTile)
    (slaveReal : Int → Int → S) (etadIfg : Option (Int → Int → S)) (keeps isFinite : S → Bool)
    (columnIdx rowIdx : Int) : Bool :=
  let minCutAzw := (cohWindowAz - 1) / 2
  let minCutRgw := (cohWindowRg - 1) / 2
  let columnIdxInputTile := columnIdx + minCutRgw - tile.xMinPad
  let rowIdxInputTile := rowIdx + minCutAzw - tile.yMinPad
  let idx := rowIdxInputTile * tile.tileIn.getXSize + columnIdxInputTile
  let etadValid := match etadIfg with
    | none => true
    | some etad => isFinite (tileData tile etad idx)
  etadValid && keeps (tileData tile slaveReal idx)

/-! ## The reference -/

namespace CohTilesGenerator

variable (g : CohTilesGenerator)

/-- The sum of the band over the window of the pixel, clipped to the columns of the band and to
the lines of the pixel's burst. -/
def windowedSum (band : Int → Int → R) (x y : Int) : R :=
  let burstFirstLine := y / g.linesPerBurst.1 * g.linesPerBurst.1
  sumFrom 0 (intRange (max (y - g.cohY) burstFirstLine)
      (min (y - g.cohY + g.cohWinAz.1) (burstFirstLine + g.linesPerBurst.1))) fun y' =>
    sumFrom 0 (intRange (max (x - g.cohX) 0) (min (x - g.cohX + g.cohWinRg.1) g.bandXSize.1))
      fun x' => band x' y'

end CohTilesGenerator

end Kernels

namespace CohTilesGenerator

/-- Over a commutative addition the reference is a double sum. -/
theorem windowedSum_eq_sum {R : Type} [AddCommMonoid R] (g : CohTilesGenerator)
    (band : Int → Int → R) (x y : Int) :
    g.windowedSum band x y =
      ∑ y' ∈ Finset.Ico (max (y - g.cohY) (y / g.linesPerBurst.1 * g.linesPerBurst.1))
        (min (y - g.cohY + g.cohWinAz.1)
          (y / g.linesPerBurst.1 * g.linesPerBurst.1 + g.linesPerBurst.1)),
        ∑ x' ∈ Finset.Ico (max (x - g.cohX) 0) (min (x - g.cohX + g.cohWinRg.1) g.bandXSize.1),
          band x' y' := by
  simp only [windowedSum, sumFrom_eq_sum]

/-- The tiles can be read, cover the band, and give every pixel the windowed sum and the keep
flag of its own sample, whatever the band holds. -/
structure BandCorrect (g : CohTilesGenerator) (tiles : List CohTile) : Prop extends
    g.Runnable tiles where
  sums : ∀ (R : Type) [AddZeroClass R] (band : Int → Int → R), ∀ t ∈ tiles, ∀ x y,
    t.tileOut.Contains x y →
      sumSurroundings g.cohWinRg.1 g.cohWinAz.1 t band (x - t.tileOut.xMin) (y - t.tileOut.yMin) =
        g.windowedSum band x y
  keep : ∀ (S : Type) (slaveReal : Int → Int → S) (etadIfg : Option (Int → Int → S))
    (keeps isFinite : S → Bool), ∀ t ∈ tiles, ∀ x y, t.tileOut.Contains x y →
      boolImage g.cohWinRg.1 g.cohWinAz.1 t slaveReal etadIfg keeps isFinite
          (x - t.tileOut.xMin) (y - t.tileOut.yMin) =
        ((match etadIfg with
          | none => true
          | some etad => isFinite (etad x y)) && keeps (slaveReal x y))

/-- The coherence sums of the band do not depend on its tiling: the generator throws, or returns
tiles that give the reference at every pixel. -/
def WindowedSumsCorrect (g : CohTilesGenerator) : Prop :=
  g.generateTiles = .throws ∨ ∃ tiles, g.generateTiles = .ok tiles ∧ g.BandCorrect tiles


end CohTilesGenerator

/-! ## One row of the window -/

section Rows

variable {R : Type} [AddZeroClass R] {tile : CohTile} {band : Int → Int → R}

/-- A flat index names the pixel it was made from. -/
theorem tileData_flat {S : Type} (tile : CohTile) (band : Int → Int → S) {row column : Int}
    (h0 : 0 ≤ column) (hlt : column < tile.tileIn.getXSize) :
    tileData tile band (row * tile.tileIn.getXSize + column) =
      band (tile.tileIn.xMin + column) (tile.tileIn.yMin + row) := by
  have hwidth : tile.tileIn.getXSize ≠ 0 := by omega
  rw [tileData, add_comm (row * _), Int.add_mul_emod_self_right, Int.emod_eq_of_lt h0 hlt,
    Int.add_mul_ediv_right _ _ hwidth, Int.ediv_eq_zero_of_lt h0 hlt, zero_add]

/-- One round of the outer loop of `sumSurroundings`, over the columns of one row. -/
def rowSum (tile : CohTile) (band : Int → Int → R) (columnIdx first last row : Int) : R :=
  (intRange first last).foldl (fun acc j =>
    if row * tile.tileIn.getXSize + (columnIdx + j) <
        tile.tileIn.getXSize * tile.tileIn.getYSize then
      acc + tileData tile band (row * tile.tileIn.getXSize + (columnIdx + j))
    else acc) 0

/-- One row of the window inside the tile. A loop that runs past the end of the row is cut off
there only in the last row of the tile, by the bound on the flat index. -/
theorem rowSum_eq {row columnIdx first last : Int}
    (hrow : row < tile.tileIn.getYSize) (hfirst : 0 ≤ columnIdx + first)
    (hlast : row = tile.tileIn.getYSize - 1 ∨ columnIdx + last ≤ tile.tileIn.getXSize)
    (hwidth : 0 < tile.tileIn.getXSize) :
    rowSum tile band columnIdx first last row =
    sumFrom 0 (intRange (first + (tile.tileIn.xMin + columnIdx))
      (min last (tile.tileIn.getXSize - columnIdx) + (tile.tileIn.xMin + columnIdx))) fun x' =>
        band x' (tile.tileIn.yMin + row) := by
  unfold rowSum
  set width := tile.tileIn.getXSize with hw
  set height := tile.tileIn.getYSize with hh
  have hbelow : row * width + width ≤ width * height := by
    have h1 : (row + 1) * width ≤ height * width :=
      Int.mul_le_mul_of_nonneg_right (by omega) hwidth.le
    rw [add_mul, one_mul, mul_comm height] at h1
    exact h1
  rw [foldl_guard, sumFrom_intRange_of_zero (m := width - columnIdx), ← sumFrom_shift]
  · refine sumFrom_congr fun j hj => ?_
    obtain ⟨h1, h2⟩ := mem_intRange.mp hj
    rw [if_pos (by omega), hw, tileData_flat tile band (by omega) (by omega)]
    congr 1
    omega
  · intro j _ hj hpast
    rcases hlast with hlast | hlast
    · have hend : row * width + width = width * height := by
        rw [hlast, sub_mul, one_mul, mul_comm height]
        ring
      rw [if_neg (by omega)]
    · omega

/-- A row of the window below the tile adds nothing. -/
theorem rowSum_below {row columnIdx first last : Int} (hrow : tile.tileIn.getYSize ≤ row)
    (hfirst : 0 ≤ columnIdx + first) (hwidth : 0 < tile.tileIn.getXSize) :
    rowSum tile band columnIdx first last row = 0 := by
  have hle : tile.tileIn.getYSize * tile.tileIn.getXSize ≤ row * tile.tileIn.getXSize :=
    Int.mul_le_mul_of_nonneg_right hrow hwidth.le
  rw [mul_comm] at hle
  rw [rowSum, foldl_guard]
  refine sumFrom_of_zero _ fun j hj => if_neg ?_
  have hj' := mem_intRange.mp hj
  omega

end Rows

namespace CohTilesGenerator

variable {g : CohTilesGenerator}

/-! ## The window of a pixel -/

theorem startRange_eq (idxInputTile : Int) : startRange idxInputTile = max (-idxInputTile) 0 := by
  unfold startRange
  split
  · rw [abs_of_neg ‹_›]
    omega
  · omega

/-- The column of the tile that the first column of the window stands for. -/
def columnIdxInput (g : CohTilesGenerator) (tileX x : Int) : Int :=
  x - g.tileXSize.1 * tileX - (if tileX = 0 then g.cohX else 0)

/-- The end of the loop over the columns of the window. -/
def columnEnd (g : CohTilesGenerator) (tileX x : Int) : Int :=
  windowSize g.cohWinRg.1 (x - g.tileXSize.1 * tileX)
    (if tileX = g.xTiles - 1 then g.cohX + g.xAsymmetry else 0)
    (g.inXMax tileX - g.inXMin tileX + 1)

/-- The columns the kernel adds, within the row: those of the clipped window. -/
theorem ColumnsFit.window_columns (h : g.ColumnsFit) (hwindow : 2 * g.cohX ≤ g.tileXSize.1)
    {tileX x : Int} (hX : 0 ≤ tileX) (hXlast : tileX < g.xTiles)
    (hx : g.tileXSize.1 * tileX ≤ x) (hx' : x ≤ g.outXMax tileX) :
    g.inXMin tileX + g.columnIdxInput tileX x = x - g.cohX ∧
      0 ≤ g.columnIdxInput tileX x + startRange (g.columnIdxInput tileX x) ∧
      startRange (g.columnIdxInput tileX x) + (x - g.cohX) = max (x - g.cohX) 0 ∧
      min (g.columnEnd tileX x) (g.inXMax tileX - g.inXMin tileX + 1 - g.columnIdxInput tileX x) +
          (x - g.cohX) = min (x - g.cohX + g.cohWinRg.1) g.bandXSize.1 := by
  obtain ⟨h0, h1, h2, h3⟩ := h.start_bounds hX (by omega)
  have hc := g.cohX_nonneg
  have ha := g.xAsymmetry_bounds
  have hwin := g.cohWinRg_eq
  have hT := g.tileXSize.2.1
  have hsucc : g.tileXSize.1 * (tileX + 1) = g.tileXSize.1 * tileX + g.tileXSize.1 := by ring
  have hzero : tileX = 0 → g.tileXSize.1 * tileX = 0 := fun h => by rw [h, mul_zero]
  rw [startRange_eq]
  unfold columnIdxInput columnEnd windowSize inXMin inXMax
  unfold outXMax at hx'
  rw [hsucc] at hx' ⊢
  refine ⟨?_, ?_, ?_, ?_⟩
  · split_ifs <;> omega
  · split_ifs <;> omega
  · split_ifs <;> omega
  · split_ifs at hx' ⊢ <;> omega

/-- Only the last of several tiles lets the loop run past the end of a row, by half a window. -/
theorem ColumnsFit.columnEnd_le (h : g.ColumnsFit)
    (hside : g.xTiles = 1 ∨ g.cohX = 0) {tileX x : Int} (hX : 0 ≤ tileX)
    (hXlast : tileX < g.xTiles) (hx' : x ≤ g.outXMax tileX) :
    g.columnIdxInput tileX x + g.columnEnd tileX x ≤ g.inXMax tileX - g.inXMin tileX + 1 := by
  obtain ⟨h0, h1, h2, h3⟩ := h.start_bounds hX (by omega)
  have hc := g.cohX_nonneg
  have ha := g.xAsymmetry_bounds
  have hwin := g.cohWinRg_eq
  have hT := g.tileXSize.2.1
  have hsucc : g.tileXSize.1 * (tileX + 1) = g.tileXSize.1 * tileX + g.tileXSize.1 := by ring
  have hzero : tileX = 0 → g.tileXSize.1 * tileX = 0 := fun h => by rw [h, mul_zero]
  unfold columnIdxInput columnEnd windowSize inXMin inXMax
  unfold outXMax at hx'
  rw [hsucc] at hx' ⊢
  split_ifs at hx' ⊢ <;> omega

/-- The rows the kernel visits: those of the clipped window, and for an even window one more
below the tile. -/
theorem window_rows (tileY y : Int) :
    let rowIdx := y - tileY * g.linesPerBurst.1
    let rowIdxInput := rowIdx - g.cohY
    let rowEnd := windowSize g.cohWinAz.1 rowIdx g.cohY g.linesPerBurst.1
    0 ≤ rowIdxInput + startRange rowIdxInput ∧
      startRange rowIdxInput + (y - g.cohY) = max (y - g.cohY) (tileY * g.linesPerBurst.1) ∧
      min rowEnd (g.linesPerBurst.1 - rowIdxInput) + (y - g.cohY) =
        min (y - g.cohY + g.cohWinAz.1) (tileY * g.linesPerBurst.1 + g.linesPerBurst.1) := by
  have hc := g.cohY_nonneg
  have haz : g.cohWinAz.1 = 2 * g.cohY + 1 ∨ g.cohWinAz.1 = 2 * g.cohY + 2 := by
    have hpos := g.cohWinAz.2.1
    unfold cohY
    omega
  simp only [startRange_eq, windowSize]
  refine ⟨?_, ?_, ?_⟩
  · omega
  · omega
  · split_ifs <;> omega

/-- The kernel at a pixel of a tile: the loop over its rows, from `0`. -/
theorem sumSurroundings_tileAt {R : Type} [AddZeroClass R] (band : Int → Int → R)
    (tileY tileX x y : Int) :
    sumSurroundings g.cohWinRg.1 g.cohWinAz.1 (g.tileAt tileY tileX) band
        (x - g.tileXSize.1 * tileX) (y - tileY * g.linesPerBurst.1) =
      sumFrom 0 (intRange (startRange (y - tileY * g.linesPerBurst.1 - g.cohY))
          (windowSize g.cohWinAz.1 (y - tileY * g.linesPerBurst.1) g.cohY g.linesPerBurst.1))
        fun i => rowSum (g.tileAt tileY tileX) band (g.columnIdxInput tileX x)
          (startRange (g.columnIdxInput tileX x)) (g.columnEnd tileX x)
          (y - tileY * g.linesPerBurst.1 - g.cohY + i) := by
  rw [← tileAt_getYSize (g := g) tileY tileX]
  rfl

theorem ColumnsFit.sumSurroundings_eq (h : g.ColumnsFit) (hwindow : 2 * g.cohX ≤ g.tileXSize.1)
    (hside : g.xTiles = 1 ∨ g.cohX = 0 ∨ g.linesPerBurst.1 = 1) {R : Type} [AddZeroClass R]
    (band : Int → Int → R) {tileY tileX x y : Int} (hX : 0 ≤ tileX) (hXlast : tileX < g.xTiles)
    (hpix : (g.tileAt tileY tileX).tileOut.Contains x y) :
    sumSurroundings g.cohWinRg.1 g.cohWinAz.1 (g.tileAt tileY tileX) band
        (x - g.tileXSize.1 * tileX) (y - tileY * g.linesPerBurst.1) = g.windowedSum band x y := by
  obtain ⟨hx, hx', hy, hy'⟩ := hpix
  obtain ⟨hcol, hfirst, hleft, hright⟩ := h.window_columns hwindow hX hXlast hx hx'
  obtain ⟨htop, hupper, hlower⟩ := window_rows (g := g) tileY y
  have hburst : tileY = y / g.linesPerBurst.1 := row_iff.mp ⟨hy, hy'⟩
  have hwidth : 0 < (g.tileAt tileY tileX).tileIn.getXSize := by
    have hin := h.tile_columns hwindow hX hXlast
    rw [tileAt_getXSize]
    omega
  rw [sumSurroundings_tileAt, windowedSum, ← hburst, ← hupper, ← hlower, ← hleft, ← hright,
    sumFrom_intRange_of_zero (m := g.linesPerBurst.1 - (y - tileY * g.linesPerBurst.1 - g.cohY)),
    ← sumFrom_shift]
  · refine sumFrom_congr fun i hi => ?_
    obtain ⟨hi1, hi2⟩ := mem_intRange.mp hi
    rw [rowSum_eq (by rw [tileAt_getYSize]; omega) hfirst ?_ hwidth]
    · have hrow : tileY * g.linesPerBurst.1 + (y - tileY * g.linesPerBurst.1 - g.cohY + i) =
          i + (y - g.cohY) := by ring
      simp only [tileAt_getXSize]
      rw [show (g.tileAt tileY tileX).tileIn.xMin = g.inXMin tileX from rfl,
        show (g.tileAt tileY tileX).tileIn.yMin = tileY * g.linesPerBurst.1 from rfl, hcol, hrow]
    -- only a tile of one row may run past the end of its row
    · rw [tileAt_getYSize, tileAt_getXSize]
      rcases or_assoc.mpr hside with hside | hone
      · exact .inr (h.columnEnd_le hside hX hXlast hx')
      · exact .inl (by omega)
  · intro i hi1 _ hi3
    exact rowSum_below (by rw [tileAt_getYSize]; omega) hfirst hwidth

/-- The keep flag is read at the pixel itself. -/
theorem ColumnsFit.boolImage_eq (h : g.ColumnsFit) (hwindow : 2 * g.cohX ≤ g.tileXSize.1)
    {S : Type} (slaveReal : Int → Int → S) (etadIfg : Option (Int → Int → S))
    (keeps isFinite : S → Bool) {tileY tileX x y : Int} (hX : 0 ≤ tileX)
    (hXlast : tileX < g.xTiles) (hpix : (g.tileAt tileY tileX).tileOut.Contains x y) :
    boolImage g.cohWinRg.1 g.cohWinAz.1 (g.tileAt tileY tileX) slaveReal etadIfg keeps isFinite
        (x - g.tileXSize.1 * tileX) (y - tileY * g.linesPerBurst.1) =
      ((match etadIfg with
        | none => true
        | some etad => isFinite (etad x y)) && keeps (slaveReal x y)) := by
  have hx : g.tileXSize.1 * tileX ≤ x := hpix.1
  have hx' : x ≤ g.outXMax tileX := hpix.2.1
  obtain ⟨-, hin, -, hout, -, hpad, -⟩ := h.tile_columns hwindow hX hXlast
  -- the half windows and the pads cancel: the index is that of the pixel in the input rectangle
  have hcolumn : x - g.tileXSize.1 * tileX + (g.cohWinRg.1 - 1) / 2 -
      (g.tileAt tileY tileX).xMinPad = x - g.inXMin tileX := by
    show x - g.tileXSize.1 * tileX + g.cohX - (if tileX = 0 then g.cohX else 0) = _
    omega
  have hrow : y - tileY * g.linesPerBurst.1 + (g.cohWinAz.1 - 1) / 2 -
      (g.tileAt tileY tileX).yMinPad = y - tileY * g.linesPerBurst.1 := by
    show y - tileY * g.linesPerBurst.1 + g.cohY - g.cohY = _
    omega
  have hread : ∀ band : Int → Int → S, tileData (g.tileAt tileY tileX) band
      ((y - tileY * g.linesPerBurst.1) * (g.tileAt tileY tileX).tileIn.getXSize +
        (x - g.inXMin tileX)) = band x y := fun band => by
    rw [tileData_flat _ _ (by omega) (by rw [tileAt_getXSize]; omega)]
    show band (g.inXMin tileX + (x - g.inXMin tileX))
      (tileY * g.linesPerBurst.1 + (y - tileY * g.linesPerBurst.1)) = band x y
    rw [add_sub_cancel, add_sub_cancel]
  simp only [boolImage, hcolumn, hrow, hread]

/-! ## Tiles that wrap -/

/-- Over a band of ones, a row of the tile counts at least the columns within the row; above the
last row of the tile it counts all the columns the loop visits, as far as half a window. -/
theorem rowSum_ones {tile : CohTile} {row columnIdx first last : Int}
    (hrow : row < tile.tileIn.getYSize) (hwidth : 0 < tile.tileIn.getXSize) :
    (Finset.Ico first (min last (tile.tileIn.getXSize - columnIdx))).card ≤
        rowSum tile (fun _ _ => 1) columnIdx first last row ∧
      (row < tile.tileIn.getYSize - 1 → columnIdx + last ≤ 2 * tile.tileIn.getXSize →
        rowSum tile (fun _ _ => 1) columnIdx first last row = (Finset.Ico first last).card) := by
  have hbelow : (row + 1) * tile.tileIn.getXSize ≤ tile.tileIn.getYSize * tile.tileIn.getXSize :=
    Int.mul_le_mul_of_nonneg_right (by omega) hwidth.le
  rw [add_mul, one_mul, mul_comm tile.tileIn.getYSize] at hbelow
  rw [rowSum, foldl_guard, sumFrom_eq_sum]
  refine ⟨?_, fun habove hlast => ?_⟩
  · rw [Finset.card_eq_sum_ones]
    calc ∑ _j ∈ Finset.Ico first (min last (tile.tileIn.getXSize - columnIdx)), 1
        ≤ ∑ j ∈ Finset.Ico first (min last (tile.tileIn.getXSize - columnIdx)),
          (if row * tile.tileIn.getXSize + (columnIdx + j) <
            tile.tileIn.getXSize * tile.tileIn.getYSize then tileData tile (fun _ _ => 1)
              (row * tile.tileIn.getXSize + (columnIdx + j)) else 0) := by
          refine Finset.sum_le_sum fun j hj => ?_
          have hj' := Finset.mem_Ico.mp hj
          rw [if_pos (by omega)]
          exact le_refl 1
      _ ≤ _ := Finset.sum_le_sum_of_subset
          (Finset.Ico_subset_Ico_right (min_le_left _ _))
  · have hnext : (row + 2) * tile.tileIn.getXSize ≤
        tile.tileIn.getYSize * tile.tileIn.getXSize :=
      Int.mul_le_mul_of_nonneg_right (by omega) hwidth.le
    rw [add_mul, mul_comm tile.tileIn.getYSize] at hnext
    rw [Finset.card_eq_sum_ones]
    refine Finset.sum_congr rfl fun j hj => ?_
    have hj' := Finset.mem_Ico.mp hj
    rw [if_pos (by omega)]
    rfl

/-- In the last of several tiles the window of the last column wraps into the next row. -/
theorem ColumnsFit.not_sums (h : g.ColumnsFit) (hwindow : 2 * g.cohX ≤ g.tileXSize.1)
    (hn : 2 ≤ g.xTiles) (hc : 1 ≤ g.cohX) (hL : 2 ≤ g.linesPerBurst.1) :
    g.windowedSum (fun _ _ => (1 : Nat)) (g.bandXSize.1 - 1) 0 <
      sumSurroundings g.cohWinRg.1 g.cohWinAz.1 (g.tileAt 0 (g.xTiles - 1))
        (fun _ _ => (1 : Nat)) (g.bandXSize.1 - 1 - g.tileXSize.1 * (g.xTiles - 1))
        (0 - 0 * g.linesPerBurst.1) := by
  have hlast := h.last
  set k := g.xTiles - 1 with hk
  have hX : 0 ≤ k := by omega
  have hXlast : k < g.xTiles := by omega
  have hout : g.outXMax k = g.bandXSize.1 - 1 := if_pos hk
  obtain ⟨hcol, hfirst, hleft, hright⟩ :=
    h.window_columns hwindow hX hXlast (x := g.bandXSize.1 - 1) (by omega) (by omega)
  obtain ⟨htop, hupper, hlower⟩ := window_rows (g := g) 0 0
  have htile := h.tile_columns hwindow hX hXlast
  have hwidth : 0 < (g.tileAt 0 k).tileIn.getXSize := by
    rw [tileAt_getXSize]
    omega
  -- the window of the last column is wider than what is left of its row
  have hcolumns : g.columnIdxInput k (g.bandXSize.1 - 1) = g.bandXSize.1 - 1 - g.tileXSize.1 * k ∧
      g.columnEnd k (g.bandXSize.1 - 1) = 2 * g.cohX + 1 ∧
      (g.tileAt 0 k).tileIn.getXSize = g.bandXSize.1 - g.tileXSize.1 * k + g.cohX := by
    have hk0 : k ≠ 0 := by omega
    have hrg := g.cohWinRg_eq
    have ha := g.xAsymmetry_bounds
    rw [tileAt_getXSize, columnIdxInput, columnEnd, windowSize, inXMin, inXMax, if_neg hk0,
      if_neg hk0, if_pos hk, if_pos hk]
    refine ⟨by omega, ?_, by omega⟩
    split <;> omega
  obtain ⟨hidx, hend, hsize⟩ := hcolumns
  have hstart : startRange (g.columnIdxInput k (g.bandXSize.1 - 1)) = 0 := by
    rw [startRange_eq]
    omega
  rw [sumSurroundings_tileAt, windowedSum, Int.zero_ediv, ← hupper, ← hlower, ← hleft, ← hright,
    ← sumFrom_shift, ← sumFrom_shift, sumFrom_eq_sum, sumFrom_eq_sum, sumFrom_eq_sum,
    ← Finset.card_eq_sum_ones]
  calc _ < ∑ i ∈ Finset.Ico (startRange (0 - 0 * g.linesPerBurst.1 - g.cohY))
          (min (windowSize g.cohWinAz.1 (0 - 0 * g.linesPerBurst.1) g.cohY g.linesPerBurst.1)
            (g.linesPerBurst.1 - (0 - 0 * g.linesPerBurst.1 - g.cohY))),
        rowSum (g.tileAt 0 k) (fun _ _ => 1) (g.columnIdxInput k (g.bandXSize.1 - 1))
          (startRange (g.columnIdxInput k (g.bandXSize.1 - 1)))
          (g.columnEnd k (g.bandXSize.1 - 1)) (0 - 0 * g.linesPerBurst.1 - g.cohY + i) := by
        refine Finset.sum_lt_sum (fun i hi => ?_) ⟨g.cohY, ?_, ?_⟩
        · have hi' := Finset.mem_Ico.mp hi
          rw [← tileAt_getXSize (g := g) 0 k]
          exact (rowSum_ones (by rw [tileAt_getYSize]; omega) hwidth).1
        -- the first row of the burst is in the window of its own pixels
        · have haz := g.cohWinAz.2.1
          have hcy : g.cohY = (g.cohWinAz.1 - 1) / 2 := rfl
          rw [Finset.mem_Ico, startRange_eq, windowSize]
          split <;> omega
        · rw [(rowSum_ones (by rw [tileAt_getYSize]; omega) hwidth).2
            (by rw [tileAt_getYSize]; omega) (by omega), hstart, hend, hidx, Int.card_Ico,
            Int.card_Ico, ← tileAt_getXSize (g := g) 0 k, hsize]
          omega
    _ ≤ _ := Finset.sum_le_sum_of_subset (Finset.Ico_subset_Ico_right (min_le_left _ _))

/-! ## Results -/

theorem InRange.bandCorrect (h : g.InRange) (hnot : ¬ g.Rejected)
    (hside : g.xTiles = 1 ∨ g.cohX = 0 ∨ g.linesPerBurst.1 = 1) :
    g.BandCorrect (g.cells.map fun (tileY, tileX) => g.tileAt tileY tileX) := by
  have hcov : g.Covers false (g.cells.map fun (tileY, tileX) => g.tileAt tileY tileX) :=
    h.covers hnot (by simp)
  refine ⟨hcov.runnable, fun R _ band t ht x y hpix => ?_,
    fun S slaveReal etadIfg keeps isFinite t ht x y hpix => ?_⟩
  · obtain ⟨cell, hcell, rfl⟩ := List.mem_map.mp ht
    exact h.columns.sumSurroundings_eq (h.window hnot) hside band (by omega)
      (g.mem_cells.mp hcell).2 hpix
  · obtain ⟨cell, hcell, rfl⟩ := List.mem_map.mp ht
    exact h.columns.boolImage_eq (h.window hnot) slaveReal etadIfg keeps isFinite (by omega)
      (g.mem_cells.mp hcell).2 hpix

/-- Tiles that give the reference everywhere do not wrap. -/
theorem BandCorrect.side {tiles : List CohTile} (hok : g.generateTiles = .ok tiles)
    (h : g.BandCorrect tiles) : g.xTiles = 1 ∨ g.cohX = 0 ∨ g.linesPerBurst.1 = 1 := by
  by_contra hside
  have hrange := h.toRunnable.inRange hok
  have hwindow := hrange.window (g.generateTiles_ok hok).2.2.1
  have hn := hrange.nonempty
  have hc := g.cohX_nonneg
  have hL := g.linesPerBurst.2.1
  have hlast := hrange.columns.last
  have hmem := h.toRunnable.tile_eq hok (show 0 ≤ g.xTiles - 1 by omega) (by omega)
  refine (hrange.columns.not_sums hwindow (by omega) (by omega) (by omega)).ne'
    (h.sums Nat (fun _ _ => 1) _ hmem (g.bandXSize.1 - 1) 0 ?_)
  simp only [tileAt, outXMax, Tile.Contains, if_true]
  omega

/-- Two tile sizes that give the reference give the same band. -/
theorem BandCorrect.same_band {tileXSize tileYSize : Size} {tiles tiles' : List CohTile}
    (h : g.BandCorrect tiles)
    (h' : ({ g with tileXSize, tileYSize } : CohTilesGenerator).BandCorrect tiles')
    {R : Type} [AddZeroClass R] (band : Int → Int → R) {t t' : CohTile} (ht : t ∈ tiles)
    (ht' : t' ∈ tiles') {x y : Int} (hpix : t.tileOut.Contains x y)
    (hpix' : t'.tileOut.Contains x y) :
    sumSurroundings g.cohWinRg.1 g.cohWinAz.1 t band (x - t.tileOut.xMin) (y - t.tileOut.yMin) =
      sumSurroundings g.cohWinRg.1 g.cohWinAz.1 t' band (x - t'.tileOut.xMin)
        (y - t'.tileOut.yMin) := by
  -- the reference does not mention the tile size
  rw [h.sums R band t ht x y hpix]
  exact (h'.sums R band t' ht' x y hpix').symm

/-- Two tiles of four columns, a window of three, bursts of two lines. -/
def twoTiles : CohTilesGenerator where
  bandXSize := ⟨8, by decide⟩
  bandYSize := ⟨2, two_isSize⟩
  tileXSize := ⟨4, by decide⟩
  tileYSize := ⟨4, by decide⟩
  cohWinRg := ⟨3, three_isSize⟩
  cohWinAz := ⟨1, one_isSize⟩
  linesPerBurst := ⟨2, two_isSize⟩

end CohTilesGenerator

end Alus.Coherence
