import Mathlib.Data.List.Basic
import Mathlib.Data.List.ProdSigma
import Mathlib.Tactic.Linarith
import Alus.Lib.Binary32
import Alus.Lib.Machine

/-!
# Coherence tiles

`CohTilesGenerator::GenerateTiles` (`coherence-cuda/src/coh_tiles_generator.cc`) cuts the band
into output tiles, one burst high, and gives each an input rectangle: the output rectangle with
a halo of half a coherence window to the left and right. Where the halo would leave the band it
is left out and the tile gets a pad instead; above and below, where the burst ends, every tile
has pads. A last tile that is not wider than the window is merged into the one before.

Sizes are positive `int`s. The tile count and half the window are computed in single precision
and converted to `short`.
-/

namespace Alus.Coherence

open Alus.Lib

/-- A size: a positive `int`. -/
abbrev Size := { z : Int // 0 < z ∧ z < 2147483648 }

theorem one_isSize : 0 < (1 : Int) ∧ (1 : Int) < 2147483648 := by decide

theorem two_isSize : 0 < (2 : Int) ∧ (2 : Int) < 2147483648 := by decide

theorem three_isSize : 0 < (3 : Int) ∧ (3 : Int) < 2147483648 := by decide

/-! ## Tiles -/

/-- `Tile`: the first and last column and row of a rectangle. -/
structure Tile where
  xMax : Int
  yMax : Int
  xMin : Int
  yMin : Int
  deriving DecidableEq, Repr

namespace Tile

def getXSize (t : Tile) : Int := t.xMax - t.xMin + 1

def getYSize (t : Tile) : Int := t.yMax - t.yMin + 1

/-- The pixel lies in the rectangle. -/
def Contains (t : Tile) (x y : Int) : Prop :=
  t.xMin ≤ x ∧ x ≤ t.xMax ∧ t.yMin ≤ y ∧ y ≤ t.yMax

end Tile

/-- `CohTile`. -/
structure CohTile where
  tileX : Int
  tileY : Int
  tileIn : Tile
  tileOut : Tile
  yMinPad : Int
  yMaxPad : Int
  xMinPad : Int
  xMaxPad : Int
  burstIndex : Int
  burstSize : Int
  deriving DecidableEq, Repr

/-- The input rectangle with the pads around it. -/
def CohTile.padded (t : CohTile) : Tile where
  xMax := t.tileIn.xMax + t.xMaxPad
  yMax := t.tileIn.yMax + t.yMaxPad
  xMin := t.tileIn.xMin - t.xMinPad
  yMin := t.tileIn.yMin - t.yMinPad

/-! ## The generator -/

/-- `GetCohWinDim`: half the window, through single precision. -/
def getCohWinDim (cohWinDim : Int) : Outcome Int :=
  int16 (Binary32.trunc (Binary32.round (Binary32.round (Binary32.ofInt cohWinDim - 1) / 2)))

/-- The ceiling that `GetNumberOfTilesDim` converts to `short`. -/
def tileCount (bandSizeDim tileSizeDim : Int) : Int :=
  ⌈Binary32.round (Binary32.ofInt bandSizeDim / Binary32.ofInt tileSizeDim)⌉

def getNumberOfTilesDim (bandSizeDim tileSizeDim : Int) : Outcome Int :=
  int16 (tileCount bandSizeDim tileSizeDim)

structure CohTilesGenerator where
  bandXSize : Size
  bandYSize : Size
  tileXSize : Size
  tileYSize : Size
  cohWinRg : Size
  cohWinAz : Size
  linesPerBurst : Size

namespace CohTilesGenerator

variable (g : CohTilesGenerator)

/-- `x_asymmetry`: an even window has one more column on the right. -/
def xAsymmetry : Int :=
  if g.cohWinRg.1 % 2 = 0 then 1 else 0

/-- The left end of a tile: `x_min_pad` and `data_x_min`. -/
def leftEnd (cohX tileX : Int) : Outcome (Int × Int) :=
  if g.tileXSize.1 ≥ g.bandXSize.1 then
    .ok (cohX, 0)
  else if tileX = 0 then
    .ok (cohX, 0)
  else do
    let start ← int32 (g.tileXSize.1 * tileX)
    let dataXMin ← int32 (start - cohX)
    return (0, dataXMin)

/-- The right end of a tile: `x_max_pad` and `data_x_max`. -/
def rightEnd (cohX xTiles tileX dataXMin : Int) : Outcome (Int × Int) :=
  if g.tileXSize.1 ≥ g.bandXSize.1 then
    .ok (cohX + g.xAsymmetry, g.bandXSize.1 - 1)
  else if tileX = xTiles - 1 then
    .ok (cohX + g.xAsymmetry, g.bandXSize.1 - 1)
  -- the first tile starts at the border, the later ones half a window before their output
  else if tileX = 0 then do
    let next ← int32 (dataXMin + g.tileXSize.1)
    let dataXMax ← int32 (next - 1 + cohX + g.xAsymmetry)
    return (0, dataXMax)
  else do
    let next ← int32 (dataXMin + g.tileXSize.1)
    let dataXMax ← int32 (next - 1 + 2 * cohX + g.xAsymmetry)
    return (0, dataXMax)

/-- `tile_x_size_out`: the last tile takes what is left of the band. -/
def tileXSizeOut (xTiles tileX : Int) : Outcome Int :=
  if tileX = xTiles - 1 then do
    let start ← int32 (g.tileXSize.1 * tileX)
    int32 (g.bandXSize.1 - start)
  else
    return g.tileXSize.1

/-- The body of the two loops. -/
def cohTile (cohX cohY xTiles tileY tileX : Int) : Outcome CohTile := do
  -- a tile is one burst high and has no halo in azimuth
  let dataYMin ← int32 (tileY * g.linesPerBurst.1)
  let nextY ← int32 (dataYMin + g.linesPerBurst.1)
  let dataYMax := nextY - 1
  let (xMinPad, dataXMin) ← g.leftEnd cohX tileX
  let (xMaxPad, dataXMax) ← g.rightEnd cohX xTiles tileX dataXMin
  let sizeOut ← g.tileXSizeOut xTiles tileX
  let outXMin ← int32 (g.tileXSize.1 * tileX)
  let outXMax ← int32 (sizeOut - 1 + outXMin)
  return {
    tileX := tileX
    tileY := tileY
    tileIn := ⟨dataXMax, dataYMax, dataXMin, dataYMin⟩
    tileOut := ⟨outXMax, dataYMax, outXMin, dataYMin⟩
    yMinPad := cohY
    yMaxPad := cohY
    xMinPad := xMinPad
    xMaxPad := xMaxPad
    burstIndex := dataYMin / g.linesPerBurst.1
    burstSize := g.linesPerBurst.1 }

/-- `x_tiles` after the last tile is merged, when it is not wider than the window. -/
def mergedTiles (xTiles cohX : Int) : Int :=
  let xLastTile := g.bandXSize.1 % g.tileXSize.1
  if xLastTile ≠ 0 ∧ xLastTile ≤ cohX * 2 then xTiles - 1 else xTiles

/-- `GenerateTiles`. -/
def generateTiles : Outcome (List CohTile) := do
  let cohX ← getCohWinDim g.cohWinRg.1
  let cohY ← getCohWinDim g.cohWinAz.1
  if 2 * cohY > g.tileYSize.1 ∨ 2 * cohX > g.tileXSize.1 then
    Outcome.throws
  else do
    let count ← getNumberOfTilesDim g.bandXSize.1 g.tileXSize.1
    let xTiles := g.mergedTiles count cohX
    -- one row of tiles for each burst; rows left over get none
    let yTiles := g.bandYSize.1 / g.linesPerBurst.1
    let _ ← int32 (yTiles * xTiles)
    Outcome.collect ((List.range yTiles.toNat ×ˢ List.range xTiles.toNat).map
      fun (tileY, tileX) => g.cohTile cohX cohY xTiles tileY tileX)

end CohTilesGenerator

/-- One round of the loop over the tiles in `CUDAAlgorithmRunner::Run`. -/
def maxInTileStep (maxInTileSz : Int) (tile : CohTile) : Outcome Int := do
  let tileSz ← int32 (tile.tileIn.getYSize * tile.tileIn.getXSize)
  return if tileSz > maxInTileSz then tileSz else maxInTileSz

/-- The size of the buffers of the runner. -/
def maxInTileSz (tiles : List CohTile) : Outcome Int :=
  tiles.foldlM maxInTileStep 0

/-! ## Exact values

The values behind the machine arithmetic, as integers. -/

theorem getCohWinDim_eq_ok {w c : Int} (hw : 0 < w) :
    getCohWinDim w = .ok c ↔ w ≤ 65536 ∧ c = (w - 1) / 2 := by
  unfold getCohWinDim
  by_cases hsmall : w ≤ 65536
  · have hexact : Binary32.round (Binary32.round (Binary32.ofInt w - 1) / 2) =
        ((w - 1 : Int) : ℚ) / 2 := by
      rw [Binary32.ofInt_eq hw.le (by omega)]
      have hsub : ((w : ℚ) - 1) = ((w - 1 : Int) : ℚ) := by push_cast; ring
      rw [hsub, Binary32.round_intCast (by omega) (by omega)]
      rcases eq_or_lt_of_le (show 0 ≤ w - 1 by omega) with h0 | h0
      · rw [← h0]
        simp [Binary32.round, Binary32.roundHalfEven]
      · exact Binary32.round_half h0 (by omega)
    have hnonneg : (0 : ℚ) ≤ ((w - 1 : Int) : ℚ) / 2 :=
      div_nonneg (by exact_mod_cast (show 0 ≤ w - 1 by omega)) (by norm_num)
    have htrunc : Binary32.trunc (((w - 1 : Int) : ℚ) / 2) = (w - 1) / 2 := by
      rw [Binary32.trunc, if_pos hnonneg]
      exact Rat.floor_intCast_div_natCast (w - 1) 2
    rw [hexact, htrunc, int16_eq_ok, fits16_iff]
    constructor
    · rintro ⟨_, rfl⟩
      exact ⟨hsmall, rfl⟩
    · rintro ⟨_, rfl⟩
      exact ⟨by omega, rfl⟩
  -- half of such a window does not fit a `short`
  · have h1 : ((65537 : Int) : ℚ) ≤ Binary32.ofInt w :=
      Binary32.le_round (by norm_num) (by norm_num) (by exact_mod_cast (by omega))
    have h2 : ((65536 : Int) : ℚ) ≤ Binary32.round (Binary32.ofInt w - 1) :=
      Binary32.le_round (by norm_num) (by norm_num) (by push_cast at h1 ⊢; linarith)
    have h3 : ((32768 : Int) : ℚ) ≤
        Binary32.round (Binary32.round (Binary32.ofInt w - 1) / 2) :=
      Binary32.le_round (by norm_num) (by norm_num) (by push_cast at h2 ⊢; linarith)
    have h4 : 32768 ≤ Binary32.trunc
        (Binary32.round (Binary32.round (Binary32.ofInt w - 1) / 2)) := by
      rw [Binary32.trunc, if_pos (le_trans (by norm_num) h3)]
      exact Int.le_floor.mpr h3
    rw [int16_eq_ok, fits16_iff]
    constructor
    · rintro ⟨hfits, _⟩
      omega
    · rintro ⟨hle, _⟩
      exact absurd hle hsmall

theorem tileCount_pos {w t : Int} (hw : 0 < w) (ht : 0 < t) : 0 < tileCount w t := by
  have hw' : 0 < Binary32.ofInt w := Binary32.round_pos (by exact_mod_cast hw)
  have ht' : 0 < Binary32.ofInt t := Binary32.round_pos (by exact_mod_cast ht)
  exact Int.ceil_pos.mpr (Binary32.round_pos (div_pos hw' ht'))

theorem getNumberOfTilesDim_eq_ok {w t n : Int} (hw : 0 < w) (ht : 0 < t) :
    getNumberOfTilesDim w t = .ok n ↔ tileCount w t ≤ 32767 ∧ n = tileCount w t := by
  have hpos := tileCount_pos hw ht
  rw [getNumberOfTilesDim, int16_eq_ok, fits16_iff]
  constructor
  · rintro ⟨hfits, rfl⟩
    exact ⟨by omega, rfl⟩
  · rintro ⟨hle, rfl⟩
    exact ⟨by omega, rfl⟩

namespace CohTilesGenerator

variable (g : CohTilesGenerator)

/-- `coh_x`. -/
def cohX : Int := (g.cohWinRg.1 - 1) / 2

/-- `coh_y`. -/
def cohY : Int := (g.cohWinAz.1 - 1) / 2

/-- `x_tiles`, after the merge. -/
def xTiles : Int := g.mergedTiles (tileCount g.bandXSize.1 g.tileXSize.1) g.cohX

/-- `y_tiles`. -/
def yTiles : Int := g.bandYSize.1 / g.linesPerBurst.1

def inXMin (tileX : Int) : Int :=
  if tileX = 0 then 0 else g.tileXSize.1 * tileX - g.cohX

def inXMax (tileX : Int) : Int :=
  if tileX = g.xTiles - 1 then g.bandXSize.1 - 1
  else g.tileXSize.1 * (tileX + 1) - 1 + g.cohX + g.xAsymmetry

def outXMax (tileX : Int) : Int :=
  if tileX = g.xTiles - 1 then g.bandXSize.1 - 1 else g.tileXSize.1 * (tileX + 1) - 1

/-- The tile in column `tileX` and burst `tileY`. -/
def tileAt (tileY tileX : Int) : CohTile where
  tileX := tileX
  tileY := tileY
  tileIn := ⟨g.inXMax tileX, (tileY + 1) * g.linesPerBurst.1 - 1, g.inXMin tileX,
    tileY * g.linesPerBurst.1⟩
  tileOut := ⟨g.outXMax tileX, (tileY + 1) * g.linesPerBurst.1 - 1, g.tileXSize.1 * tileX,
    tileY * g.linesPerBurst.1⟩
  yMinPad := g.cohY
  yMaxPad := g.cohY
  xMinPad := if tileX = 0 then g.cohX else 0
  xMaxPad := if tileX = g.xTiles - 1 then g.cohX + g.xAsymmetry else 0
  burstIndex := tileY
  burstSize := g.linesPerBurst.1

theorem cohX_nonneg : 0 ≤ g.cohX := by
  have h := g.cohWinRg.2.1
  unfold cohX
  omega

theorem cohY_nonneg : 0 ≤ g.cohY := by
  have h := g.cohWinAz.2.1
  unfold cohY
  omega

theorem xAsymmetry_bounds : 0 ≤ g.xAsymmetry ∧ g.xAsymmetry ≤ 1 := by
  unfold xAsymmetry
  split <;> omega

/-- The window is half a window to each side, the pixel itself and the asymmetry. -/
theorem cohWinRg_eq : g.cohWinRg.1 = 2 * g.cohX + 1 + g.xAsymmetry := by
  have h := g.cohWinRg.2.1
  unfold cohX xAsymmetry
  split <;> omega

theorem xTiles_nonneg : 0 ≤ g.xTiles := by
  have h := tileCount_pos g.bandXSize.2.1 g.tileXSize.2.1
  unfold xTiles mergedTiles
  simp only
  split <;> omega

theorem leftEnd_of_ok {tileX : Int} {e : Int × Int} (h : g.leftEnd g.cohX tileX = .ok e)
    (hwide : g.tileXSize.1 ≥ g.bandXSize.1 → tileX = 0) :
    e = (if tileX = 0 then g.cohX else 0, g.inXMin tileX) := by
  unfold leftEnd at h
  unfold inXMin
  by_cases h0 : tileX = 0
  · rw [if_pos h0, ite_self] at h
    rw [if_pos h0, if_pos h0, ← Outcome.ok.inj h]
  · have hnarrow : ¬ g.tileXSize.1 ≥ g.bandXSize.1 := fun hw => h0 (hwide hw)
    rw [if_neg hnarrow, if_neg h0] at h
    simp only [Outcome.bind_eq_ok, int32_eq_ok, Outcome.pure_eq, Outcome.ok.injEq] at h
    obtain ⟨_, ⟨_, rfl⟩, _, ⟨_, rfl⟩, rfl⟩ := h
    rw [if_neg h0, if_neg h0]

theorem rightEnd_of_ok {tileX : Int} {e : Int × Int}
    (h : g.rightEnd g.cohX g.xTiles tileX (g.inXMin tileX) = .ok e)
    (hwide : g.tileXSize.1 ≥ g.bandXSize.1 → tileX = g.xTiles - 1) :
    e = (if tileX = g.xTiles - 1 then g.cohX + g.xAsymmetry else 0, g.inXMax tileX) := by
  unfold rightEnd at h
  unfold inXMax
  by_cases hlast : tileX = g.xTiles - 1
  · rw [if_pos hlast, ite_self] at h
    rw [if_pos hlast, if_pos hlast, ← Outcome.ok.inj h]
  · have hnarrow : ¬ g.tileXSize.1 ≥ g.bandXSize.1 := fun hw => hlast (hwide hw)
    rw [if_neg hnarrow, if_neg hlast] at h
    rw [if_neg hlast, if_neg hlast]
    by_cases h0 : tileX = 0
    · simp only [if_pos h0, Outcome.bind_eq_ok, int32_eq_ok, Outcome.pure_eq,
        Outcome.ok.injEq] at h
      obtain ⟨_, ⟨_, rfl⟩, _, ⟨_, rfl⟩, rfl⟩ := h
      simp [inXMin, h0]
    · simp only [if_neg h0, Outcome.bind_eq_ok, int32_eq_ok, Outcome.pure_eq,
        Outcome.ok.injEq] at h
      obtain ⟨_, ⟨_, rfl⟩, _, ⟨_, rfl⟩, rfl⟩ := h
      simp only [inXMin, if_neg h0, Prod.mk.injEq, true_and]
      ring

theorem tileXSizeOut_of_ok {tileX n : Int} (h : g.tileXSizeOut g.xTiles tileX = .ok n) :
    n - 1 + g.tileXSize.1 * tileX = g.outXMax tileX := by
  unfold tileXSizeOut at h
  unfold outXMax
  by_cases hlast : tileX = g.xTiles - 1
  · simp only [if_pos hlast, Outcome.bind_eq_ok, int32_eq_ok] at h
    obtain ⟨_, ⟨_, rfl⟩, _, rfl⟩ := h
    rw [if_pos hlast]
    ring
  · simp only [if_neg hlast, Outcome.pure_eq, Outcome.ok.injEq] at h
    rw [if_neg hlast, ← h]
    ring

/-- Every tile that is computed at all has the exact output rectangle. -/
theorem tileOut_of_ok {tileY tileX : Int} {t : CohTile}
    (h : g.cohTile g.cohX g.cohY g.xTiles tileY tileX = .ok t) :
    t.tileOut = (g.tileAt tileY tileX).tileOut := by
  unfold cohTile at h
  simp only [Outcome.bind_eq_ok, int32_eq_ok, Outcome.pure_eq, Outcome.ok.injEq] at h
  obtain ⟨_, ⟨_, rfl⟩, _, ⟨_, rfl⟩, _, _, _, _, sizeOut, hsize, _, ⟨_, rfl⟩, _, ⟨_, rfl⟩, rfl⟩ := h
  simp only [tileAt, Tile.mk.injEq, and_true]
  exact ⟨g.tileXSizeOut_of_ok hsize, by ring⟩

/-- A tile that is computed at all is `tileAt`; only a tile as wide as the band needs to be the
only one. -/
theorem eq_tileAt_of_ok {tileY tileX : Int} {t : CohTile}
    (h : g.cohTile g.cohX g.cohY g.xTiles tileY tileX = .ok t)
    (hwide : g.tileXSize.1 ≥ g.bandXSize.1 → tileX = 0 ∧ tileX = g.xTiles - 1) :
    t = g.tileAt tileY tileX := by
  have hL : g.linesPerBurst.1 ≠ 0 := g.linesPerBurst.2.1.ne'
  unfold cohTile at h
  simp only [Outcome.bind_eq_ok, int32_eq_ok, Outcome.pure_eq, Outcome.ok.injEq] at h
  obtain ⟨_, ⟨_, rfl⟩, _, ⟨_, rfl⟩, left, hleft, right, hright, sizeOut, hsize, _, ⟨_, rfl⟩, _,
    ⟨_, rfl⟩, rfl⟩ := h
  obtain rfl := g.leftEnd_of_ok hleft fun hw => (hwide hw).1
  obtain rfl := g.rightEnd_of_ok hright fun hw => (hwide hw).2
  have hrow : tileY * g.linesPerBurst.1 + g.linesPerBurst.1 - 1 =
      (tileY + 1) * g.linesPerBurst.1 - 1 := by ring
  simp only [tileAt, g.tileXSizeOut_of_ok hsize, hrow, Int.mul_ediv_cancel _ hL]

/-- The tile count leaves the last tile inside the band, with room for the halo of the tile
before it. -/
structure ColumnsFit : Prop where
  last : g.tileXSize.1 * (g.xTiles - 1) < g.bandXSize.1
  halo : 2 ≤ g.xTiles → g.tileXSize.1 * (g.xTiles - 1) + g.cohX + g.xAsymmetry ≤ g.bandXSize.1

variable {g}

/-- The left edge of a tile, and of the next one when there is one. -/
theorem ColumnsFit.start_bounds (h : g.ColumnsFit) {tileX : Int} (hX : 0 ≤ tileX)
    (hXlast : tileX ≤ g.xTiles - 1) :
    0 ≤ g.tileXSize.1 * tileX ∧ g.tileXSize.1 * tileX < g.bandXSize.1 ∧
      (tileX ≠ 0 → g.tileXSize.1 ≤ g.tileXSize.1 * tileX) ∧
      (tileX ≠ g.xTiles - 1 → g.tileXSize.1 * tileX + g.tileXSize.1 + g.cohX + g.xAsymmetry ≤
        g.bandXSize.1) := by
  have hT := g.tileXSize.2.1
  have hmono : ∀ {a b : Int}, a ≤ b → g.tileXSize.1 * a ≤ g.tileXSize.1 * b := fun hab =>
    Int.mul_le_mul_of_nonneg_left hab hT.le
  refine ⟨Int.mul_nonneg hT.le hX, lt_of_le_of_lt (hmono hXlast) h.last, fun h0 => ?_,
    fun hne => ?_⟩
  · have h1 := hmono (show 1 ≤ tileX by omega)
    rwa [mul_one] at h1
  · have h1 := hmono (show tileX + 1 ≤ g.xTiles - 1 by omega)
    have h2 := h.halo (by omega)
    rw [mul_add, mul_one] at h1
    omega

theorem ColumnsFit.leftEnd_ok (h : g.ColumnsFit) (hwindow : 2 * g.cohX ≤ g.tileXSize.1)
    {tileX : Int} (hX : 0 ≤ tileX) (hXlast : tileX ≤ g.xTiles - 1) :
    ∃ e, g.leftEnd g.cohX tileX = .ok e := by
  obtain ⟨h0, h1, h2, _⟩ := h.start_bounds hX hXlast
  have hW := g.bandXSize.2.2
  have hc := g.cohX_nonneg
  unfold leftEnd
  split
  · exact ⟨_, rfl⟩
  · split
    · exact ⟨_, rfl⟩
    · have hT := h2 ‹_›
      rw [int32_of_bounds (by omega) (by omega), Outcome.ok_bind,
        int32_of_bounds (by omega) (by omega)]
      exact ⟨_, rfl⟩

theorem ColumnsFit.rightEnd_ok (h : g.ColumnsFit) (hwindow : 2 * g.cohX ≤ g.tileXSize.1)
    {tileX : Int} (hX : 0 ≤ tileX) (hXlast : tileX ≤ g.xTiles - 1) :
    ∃ e, g.rightEnd g.cohX g.xTiles tileX (g.inXMin tileX) = .ok e := by
  obtain ⟨h0, h1, h2, h3⟩ := h.start_bounds hX hXlast
  have hW := g.bandXSize.2.2
  have hc := g.cohX_nonneg
  have ha := g.xAsymmetry_bounds
  unfold rightEnd inXMin
  split
  · exact ⟨_, rfl⟩
  · split
    · exact ⟨_, rfl⟩
    · have hend := h3 ‹_›
      split
      · rw [int32_of_bounds (by omega) (by omega), Outcome.ok_bind,
          int32_of_bounds (by omega) (by omega)]
        exact ⟨_, rfl⟩
      · have hT := h2 ‹_›
        rw [int32_of_bounds (by omega) (by omega), Outcome.ok_bind,
          int32_of_bounds (by omega) (by omega)]
        exact ⟨_, rfl⟩

theorem ColumnsFit.tileXSizeOut_ok (h : g.ColumnsFit) {tileX : Int} (hX : 0 ≤ tileX)
    (hXlast : tileX ≤ g.xTiles - 1) :
    ∃ n, g.tileXSizeOut g.xTiles tileX = .ok n ∧ Fits 32 (n - 1 + g.tileXSize.1 * tileX) := by
  obtain ⟨h0, h1, _, h3⟩ := h.start_bounds hX hXlast
  have hW := g.bandXSize.2.2
  have hT := g.tileXSize.2.1
  have hc := g.cohX_nonneg
  have ha := g.xAsymmetry_bounds
  unfold tileXSizeOut
  split
  · rw [int32_of_bounds (by omega) (by omega), Outcome.ok_bind,
      int32_of_bounds (by omega) (by omega)]
    exact ⟨_, rfl, fits32_iff.mpr (by omega)⟩
  · have hend := h3 ‹_›
    exact ⟨_, rfl, fits32_iff.mpr (by omega)⟩

/-- A tile that spans the band is the only one. -/
theorem ColumnsFit.wide (h : g.ColumnsFit) (hn : 1 ≤ g.xTiles)
    (hwide : g.tileXSize.1 ≥ g.bandXSize.1) : g.xTiles = 1 := by
  have hT := g.tileXSize.2.1
  by_contra hne
  -- with a second tile, the last one would start past the band
  have h1 : g.tileXSize.1 * 1 ≤ g.tileXSize.1 * (g.xTiles - 1) :=
    Int.mul_le_mul_of_nonneg_left (by omega) hT.le
  have h2 := h.last
  omega

/-- Values inside the band fit: the tile is computed. -/
theorem ColumnsFit.cohTile_eq (h : g.ColumnsFit) (hwindow : 2 * g.cohX ≤ g.tileXSize.1)
    {tileY tileX : Int} (hY : 0 ≤ tileY)
    (hYend : (tileY + 1) * g.linesPerBurst.1 ≤ g.bandYSize.1) (hX : 0 ≤ tileX)
    (hXlast : tileX ≤ g.xTiles - 1) :
    g.cohTile g.cohX g.cohY g.xTiles tileY tileX = .ok (g.tileAt tileY tileX) := by
  have hwide : g.tileXSize.1 ≥ g.bandXSize.1 → tileX = 0 ∧ tileX = g.xTiles - 1 := fun hw => by
    have hone := h.wide (by omega) hw
    omega
  have hL := g.linesPerBurst.2.1
  have hH := g.bandYSize.2.2
  have hW := g.bandXSize.2.2
  have hrow : 0 ≤ tileY * g.linesPerBurst.1 := Int.mul_nonneg hY hL.le
  rw [add_mul, one_mul] at hYend
  obtain ⟨h0, h1, _, _⟩ := h.start_bounds hX hXlast
  obtain ⟨left, hleft⟩ := h.leftEnd_ok hwindow hX hXlast
  obtain rfl := g.leftEnd_of_ok hleft fun hw => (hwide hw).1
  obtain ⟨right, hright⟩ := h.rightEnd_ok hwindow hX hXlast
  obtain ⟨sizeOut, hsize, hout⟩ := h.tileXSizeOut_ok hX hXlast
  have hok : ∃ t, g.cohTile g.cohX g.cohY g.xTiles tileY tileX = .ok t := by
    unfold cohTile
    simp only [int32_of_fits (fits32_iff.mpr (show -2147483648 ≤ tileY * g.linesPerBurst.1 ∧
        tileY * g.linesPerBurst.1 < 2147483648 by omega)),
      int32_of_fits (fits32_iff.mpr (show -2147483648 ≤
        tileY * g.linesPerBurst.1 + g.linesPerBurst.1 ∧
        tileY * g.linesPerBurst.1 + g.linesPerBurst.1 < 2147483648 by omega)),
      int32_of_fits (fits32_iff.mpr (show -2147483648 ≤ g.tileXSize.1 * tileX ∧
        g.tileXSize.1 * tileX < 2147483648 by omega)),
      int32_of_fits hout, hleft, hright, hsize, Outcome.ok_bind]
    exact ⟨_, rfl⟩
  obtain ⟨t, ht⟩ := hok
  rw [ht, ← g.eq_tileAt_of_ok ht hwide]

end CohTilesGenerator

end Alus.Coherence
