import Mathlib.Data.List.Pairwise
import Mathlib.Tactic.NormNum
import Alus.Coherence.CohTilesGenerator

/-!
# What the coherence tiles cover

The output tiles of `GenerateTiles` partition the band, and the input rectangles with their
pads hold the windows of their output pixels, exactly when the sizes stay in the range of the
machine arithmetic the generator and the runner use.
-/

namespace Alus.Coherence

open Alus.Lib

namespace CohTilesGenerator

variable (g : CohTilesGenerator)

/-! ## The outcomes of the generator -/

/-- `GenerateTiles` throws: the window is too large for the tile. -/
def Rejected : Prop :=
  g.cohWinRg.1 ≤ 65536 ∧ g.cohWinAz.1 ≤ 65536 ∧
    (g.tileYSize.1 < 2 * g.cohY ∨ g.tileXSize.1 < 2 * g.cohX)

instance : Decidable g.Rejected :=
  inferInstanceAs (Decidable (_ ∧ _ ∧ _))

/-- The tiles the two loops visit, burst by burst. -/
def cells : List (Nat × Nat) :=
  List.range g.yTiles.toNat ×ˢ List.range g.xTiles.toNat

theorem mem_cells {cell : Nat × Nat} :
    cell ∈ g.cells ↔ (cell.1 : Int) < g.yTiles ∧ (cell.2 : Int) < g.xTiles := by
  obtain ⟨j, k⟩ := cell
  simp [cells, List.mem_product, Int.lt_toNat]

theorem nodup_cells : g.cells.Nodup :=
  List.nodup_range.product List.nodup_range

theorem generateTiles_of_dims (hrg : g.cohWinRg.1 ≤ 65536) (haz : g.cohWinAz.1 ≤ 65536)
    (hnot : ¬ g.Rejected) (hcount : tileCount g.bandXSize.1 g.tileXSize.1 ≤ 32767)
    (hreserve : g.yTiles * g.xTiles < 2147483648) :
    g.generateTiles = Outcome.collect (g.cells.map fun (tileY, tileX) =>
      g.cohTile g.cohX g.cohY g.xTiles tileY tileX) := by
  have hx := (getCohWinDim_eq_ok (c := g.cohX) g.cohWinRg.2.1).mpr ⟨hrg, rfl⟩
  have hy := (getCohWinDim_eq_ok (c := g.cohY) g.cohWinAz.2.1).mpr ⟨haz, rfl⟩
  have hn := (getNumberOfTilesDim_eq_ok g.bandXSize.2.1 g.tileXSize.2.1).mpr ⟨hcount, rfl⟩
  have hsize : ¬ (2 * g.cohY > g.tileYSize.1 ∨ 2 * g.cohX > g.tileXSize.1) := fun h =>
    hnot ⟨hrg, haz, h⟩
  have hnonneg : 0 ≤ g.yTiles * g.xTiles :=
    Int.mul_nonneg (Int.ediv_nonneg g.bandYSize.2.1.le g.linesPerBurst.2.1.le) g.xTiles_nonneg
  have hfits : Fits 32 (g.yTiles * g.xTiles) := fits32_iff.mpr ⟨by omega, hreserve⟩
  unfold generateTiles
  rw [hx, Outcome.ok_bind, hy, Outcome.ok_bind, if_neg hsize, hn, Outcome.ok_bind]
  exact congrArg (· >>= _) (int32_of_fits hfits)

/-- What a run of `GenerateTiles` that returns tells about the sizes. -/
theorem generateTiles_ok {tiles : List CohTile} (h : g.generateTiles = .ok tiles) :
    g.cohWinRg.1 ≤ 65536 ∧ g.cohWinAz.1 ≤ 65536 ∧ ¬ g.Rejected ∧
      tileCount g.bandXSize.1 g.tileXSize.1 ≤ 32767 ∧ g.yTiles * g.xTiles < 2147483648 := by
  unfold generateTiles at h
  obtain ⟨cx, hx, h⟩ := Outcome.bind_eq_ok.mp h
  obtain ⟨cy, hy, h⟩ := Outcome.bind_eq_ok.mp h
  obtain ⟨hrg, rfl⟩ := (getCohWinDim_eq_ok g.cohWinRg.2.1).mp hx
  obtain ⟨haz, rfl⟩ := (getCohWinDim_eq_ok g.cohWinAz.2.1).mp hy
  split at h
  · cases h
  · rename_i hsize
    obtain ⟨n, hn, h⟩ := Outcome.bind_eq_ok.mp h
    obtain ⟨hcount, rfl⟩ := (getNumberOfTilesDim_eq_ok g.bandXSize.2.1 g.tileXSize.2.1).mp hn
    obtain ⟨_, hreserve, _⟩ := Outcome.bind_eq_ok.mp h
    exact ⟨hrg, haz, fun hrej => hsize hrej.2.2, hcount,
      (fits32_iff.mp (int32_eq_ok.mp hreserve).1).2⟩

theorem leftEnd_ne_throws (cohX tileX : Int) : g.leftEnd cohX tileX ≠ .throws := by
  unfold leftEnd
  split
  · simp
  · split
    · simp
    · simp [Outcome.bind_eq_throws]

theorem rightEnd_ne_throws (cohX xTiles tileX dataXMin : Int) :
    g.rightEnd cohX xTiles tileX dataXMin ≠ .throws := by
  unfold rightEnd
  split
  · simp
  · split
    · simp
    · split
      · simp [Outcome.bind_eq_throws]
      · simp [Outcome.bind_eq_throws]

theorem cohTile_ne_throws (cohX cohY xTiles tileY tileX : Int) :
    g.cohTile cohX cohY xTiles tileY tileX ≠ .throws := by
  have hsize : g.tileXSizeOut xTiles tileX ≠ .throws := by
    unfold tileXSizeOut
    split
    · simp [Outcome.bind_eq_throws]
    · simp
  simp [cohTile, Outcome.bind_eq_throws, leftEnd_ne_throws, rightEnd_ne_throws, hsize]

theorem generateTiles_eq_throws_iff : g.generateTiles = .throws ↔ g.Rejected := by
  constructor
  · intro h
    unfold generateTiles at h
    rcases Outcome.bind_eq_throws.mp h with h | ⟨cx, hx, h⟩
    · exact absurd h (int16_ne_throws _)
    · rcases Outcome.bind_eq_throws.mp h with h | ⟨cy, hy, h⟩
      · exact absurd h (int16_ne_throws _)
      · obtain ⟨hrg, rfl⟩ := (getCohWinDim_eq_ok g.cohWinRg.2.1).mp hx
        obtain ⟨haz, rfl⟩ := (getCohWinDim_eq_ok g.cohWinAz.2.1).mp hy
        split at h
        · exact ⟨hrg, haz, ‹_›⟩
        -- nothing after the check throws
        · rcases Outcome.bind_eq_throws.mp h with h | ⟨n, _, h⟩
          · exact absurd h (int16_ne_throws _)
          · rcases Outcome.bind_eq_throws.mp h with h | ⟨_, _, h⟩
            · exact absurd h (int32_ne_throws _)
            · obtain ⟨cell, _, hcell⟩ := List.mem_map.mp (Outcome.collect_eq_throws h)
              exact (g.cohTile_ne_throws _ _ _ _ _ hcell).elim
  · rintro ⟨hrg, haz, hsize⟩
    have hx := (getCohWinDim_eq_ok (c := g.cohX) g.cohWinRg.2.1).mpr ⟨hrg, rfl⟩
    have hy := (getCohWinDim_eq_ok (c := g.cohY) g.cohWinAz.2.1).mpr ⟨haz, rfl⟩
    unfold generateTiles
    rw [hx, Outcome.ok_bind, hy, Outcome.ok_bind, if_pos hsize]

/-- The tiles a run returns, one by one. -/
theorem cohTile_of_mem_cells {tiles : List CohTile} (h : g.generateTiles = .ok tiles)
    {cell : Nat × Nat} (hcell : cell ∈ g.cells) :
    ∃ t ∈ tiles, g.cohTile g.cohX g.cohY g.xTiles cell.1 cell.2 = .ok t := by
  obtain ⟨hrg, haz, hnot, hcount, hreserve⟩ := g.generateTiles_ok h
  rw [g.generateTiles_of_dims hrg haz hnot hcount hreserve, Outcome.collect_eq_ok] at h
  have hmem := List.mem_map_of_mem (f := fun (tileY, tileX) =>
    g.cohTile g.cohX g.cohY g.xTiles (tileY : Nat) (tileX : Nat)) hcell
  rw [h] at hmem
  obtain ⟨t, ht, heq⟩ := List.mem_map.mp hmem
  exact ⟨t, ht, heq.symm⟩

theorem mem_tiles {tiles : List CohTile} (h : g.generateTiles = .ok tiles) {t : CohTile}
    (ht : t ∈ tiles) :
    ∃ cell ∈ g.cells, g.cohTile g.cohX g.cohY g.xTiles cell.1 cell.2 = .ok t := by
  obtain ⟨hrg, haz, hnot, hcount, hreserve⟩ := g.generateTiles_ok h
  rw [g.generateTiles_of_dims hrg haz hnot hcount hreserve, Outcome.collect_eq_ok] at h
  have hmem := List.mem_map_of_mem (f := Outcome.ok) ht
  rw [← h] at hmem
  obtain ⟨cell, hcell, heq⟩ := List.mem_map.mp hmem
  exact ⟨cell, hcell, heq⟩

/-! ## The cover -/

/-- The window of the pixel, as the coherence of the pixel is defined. -/
def InWindow (x y x' y' : Int) : Prop :=
  x - g.cohX ≤ x' ∧ x' ≤ x - g.cohX + g.cohWinRg.1 - 1 ∧
    y - g.cohY ≤ y' ∧ y' ≤ y - g.cohY + g.cohWinAz.1 - 1

/-- The two rows belong to the same burst. -/
def SameBurst (y y' : Int) : Prop :=
  y' / g.linesPerBurst.1 = y / g.linesPerBurst.1

/-- The tiles are a cover of the band with halo. With `whole`, the rows of a window that lie
outside the burst of its pixel have to be covered as well. -/
structure Covers (whole : Bool) (tiles : List CohTile) : Prop where
  proper : ∀ t ∈ tiles, t.tileOut.xMin ≤ t.tileOut.xMax ∧ t.tileOut.yMin ≤ t.tileOut.yMax
  disjoint : tiles.Pairwise fun t t' =>
    ∀ x y, t.tileOut.Contains x y → ¬ t'.tileOut.Contains x y
  union : ∀ x y, (∃ t ∈ tiles, t.tileOut.Contains x y) ↔
    0 ≤ x ∧ x < g.bandXSize.1 ∧ 0 ≤ y ∧ y < g.bandYSize.1
  inside : ∀ t ∈ tiles, 0 ≤ t.tileIn.xMin ∧ t.tileIn.xMax < g.bandXSize.1 ∧
    0 ≤ t.tileIn.yMin ∧ t.tileIn.yMax < g.bandYSize.1
  out_in : ∀ t ∈ tiles, ∀ x y, t.tileOut.Contains x y → t.tileIn.Contains x y
  windows : ∀ t ∈ tiles, ∀ x y, t.tileOut.Contains x y → ∀ x' y', g.InWindow x y x' y' →
    (whole = true ∨ g.SameBurst y y') → t.padded.Contains x' y'
  pads : ∀ t ∈ tiles, (t.xMinPad ≠ 0 → t.tileIn.xMin = 0) ∧
    (t.xMaxPad ≠ 0 → t.tileIn.xMax = g.bandXSize.1 - 1) ∧
    (t.yMinPad ≠ 0 → g.linesPerBurst.1 ∣ t.tileIn.yMin) ∧
    (t.yMaxPad ≠ 0 → g.linesPerBurst.1 ∣ t.tileIn.yMax + 1)
  buffer : ∃ size, maxInTileSz tiles = .ok size ∧
    ∀ t ∈ tiles, t.tileIn.getYSize * t.tileIn.getXSize ≤ size

/-- The part of a cover that the runner needs to process the tiles at all. -/
structure Runnable (tiles : List CohTile) : Prop where
  proper : ∀ t ∈ tiles, t.tileOut.xMin ≤ t.tileOut.xMax ∧ t.tileOut.yMin ≤ t.tileOut.yMax
  union : ∀ x y, (∃ t ∈ tiles, t.tileOut.Contains x y) ↔
    0 ≤ x ∧ x < g.bandXSize.1 ∧ 0 ≤ y ∧ y < g.bandYSize.1
  inside : ∀ t ∈ tiles, 0 ≤ t.tileIn.xMin ∧ t.tileIn.xMax < g.bandXSize.1 ∧
    0 ≤ t.tileIn.yMin ∧ t.tileIn.yMax < g.bandYSize.1
  buffer : ∃ size, maxInTileSz tiles = .ok size ∧
    ∀ t ∈ tiles, t.tileIn.getYSize * t.tileIn.getXSize ≤ size

variable {g} in
theorem Covers.runnable {whole : Bool} {tiles : List CohTile} (h : g.Covers whole tiles) :
    g.Runnable tiles :=
  ⟨h.proper, h.union, h.inside, h.buffer⟩

/-- The generator meets its purpose: it throws, or returns a cover. -/
def TilesCorrect (whole : Bool) : Prop :=
  g.generateTiles = .throws ∨ ∃ tiles, g.generateTiles = .ok tiles ∧ g.Covers whole tiles

/-- The sizes stay in the range of the machine arithmetic, no rows are left over, and the tile
count leaves every tile its columns. -/
structure InRange : Prop where
  rg : g.cohWinRg.1 ≤ 65536
  az : g.cohWinAz.1 ≤ 65536
  count : tileCount g.bandXSize.1 g.tileXSize.1 ≤ 32767
  reserve : g.yTiles * g.xTiles < 2147483648
  divides : g.linesPerBurst.1 ∣ g.bandYSize.1
  nonempty : 1 ≤ g.xTiles
  columns : g.ColumnsFit
  area : ∀ tileX, 0 ≤ tileX → tileX < g.xTiles →
    g.linesPerBurst.1 * (g.inXMax tileX - g.inXMin tileX + 1) < 2147483648

end CohTilesGenerator

/-! ## The buffer of the runner -/

theorem maxInTileStep_eq_ok {size size' : Int} {t : CohTile} :
    maxInTileStep size t = .ok size' ↔ Fits 32 (t.tileIn.getYSize * t.tileIn.getXSize) ∧
      size' = max size (t.tileIn.getYSize * t.tileIn.getXSize) := by
  simp only [maxInTileStep, Outcome.bind_eq_ok, int32_eq_ok, Outcome.pure_eq, Outcome.ok.injEq]
  constructor
  · rintro ⟨_, ⟨hfits, rfl⟩, rfl⟩
    exact ⟨hfits, by split <;> omega⟩
  · rintro ⟨hfits, rfl⟩
    exact ⟨_, ⟨hfits, rfl⟩, by split <;> omega⟩

theorem maxInTileSz_spec {tiles : List CohTile} {start size : Int}
    (h : tiles.foldlM maxInTileStep start = .ok size) :
    start ≤ size ∧ ∀ t ∈ tiles, Fits 32 (t.tileIn.getYSize * t.tileIn.getXSize) ∧
      t.tileIn.getYSize * t.tileIn.getXSize ≤ size := by
  induction tiles generalizing start with
  | nil =>
    obtain rfl := Outcome.ok.inj h
    exact ⟨le_refl _, fun t ht => nomatch ht⟩
  | cons t tiles ih =>
    rw [List.foldlM_cons] at h
    obtain ⟨_, hstep, h⟩ := Outcome.bind_eq_ok.mp h
    obtain ⟨hfits, rfl⟩ := maxInTileStep_eq_ok.mp hstep
    obtain ⟨hle, hall⟩ := ih h
    refine ⟨by omega, fun t' ht' => ?_⟩
    rcases List.mem_cons.mp ht' with rfl | ht'
    · exact ⟨hfits, by omega⟩
    · exact hall t' ht'

theorem exists_maxInTileSz {tiles : List CohTile} (start : Int)
    (h : ∀ t ∈ tiles, Fits 32 (t.tileIn.getYSize * t.tileIn.getXSize)) :
    ∃ size, tiles.foldlM maxInTileStep start = .ok size := by
  induction tiles generalizing start with
  | nil => exact ⟨start, rfl⟩
  | cons t tiles ih =>
    obtain ⟨size, hsize⟩ := ih (max start (t.tileIn.getYSize * t.tileIn.getXSize))
      fun t' ht' => h t' (List.mem_cons_of_mem _ ht')
    refine ⟨size, ?_⟩
    rw [List.foldlM_cons, maxInTileStep_eq_ok.mpr ⟨h t List.mem_cons_self, rfl⟩]
    exact hsize

namespace CohTilesGenerator

variable {g : CohTilesGenerator}

/-! ## From the sizes to the cover -/

theorem InRange.rows (h : g.InRange) : g.yTiles * g.linesPerBurst.1 = g.bandYSize.1 :=
  Int.ediv_mul_cancel h.divides

theorem InRange.window (h : g.InRange) (hnot : ¬ g.Rejected) : 2 * g.cohX ≤ g.tileXSize.1 := by
  by_contra hlt
  exact hnot ⟨h.rg, h.az, .inr (by omega)⟩

theorem InRange.generateTiles_eq (h : g.InRange) (hnot : ¬ g.Rejected) :
    g.generateTiles = .ok (g.cells.map fun (tileY, tileX) => g.tileAt tileY tileX) := by
  have hL := g.linesPerBurst.2.1
  rw [g.generateTiles_of_dims h.rg h.az hnot h.count h.reserve, Outcome.collect_eq_ok,
    List.map_map]
  refine List.map_congr_left fun cell hcell => ?_
  obtain ⟨hj, hk⟩ := g.mem_cells.mp hcell
  have hrow : ((cell.1 : Int) + 1) * g.linesPerBurst.1 ≤ g.yTiles * g.linesPerBurst.1 :=
    Int.mul_le_mul_of_nonneg_right (by omega) hL.le
  rw [h.rows] at hrow
  exact h.columns.cohTile_eq (h.window hnot) (by omega) hrow (by omega) (by omega)

theorem tileAt_getYSize (tileY tileX : Int) :
    (g.tileAt tileY tileX).tileIn.getYSize = g.linesPerBurst.1 := by
  simp only [tileAt, Tile.getYSize]
  ring

theorem tileAt_getXSize (tileY tileX : Int) :
    (g.tileAt tileY tileX).tileIn.getXSize = g.inXMax tileX - g.inXMin tileX + 1 := rfl

/-- Which tile's output columns a column of the band belongs to. -/
theorem column_iff {x tileX : Int} (hlast : tileX < g.xTiles) (hxW : x < g.bandXSize.1) :
    (g.tileXSize.1 * tileX ≤ x ∧ x ≤ g.outXMax tileX) ↔
      tileX = min (x / g.tileXSize.1) (g.xTiles - 1) := by
  have hle : ∀ m : Int, g.tileXSize.1 * m ≤ x ↔ m ≤ x / g.tileXSize.1 := fun m => by
    rw [Int.le_ediv_iff_mul_le g.tileXSize.2.1, mul_comm]
  have hnext := hle (tileX + 1)
  rw [hle tileX]
  unfold outXMax
  split
  · omega
  · omega

/-- Which burst a row of the band belongs to. -/
theorem row_iff {y tileY : Int} :
    (tileY * g.linesPerBurst.1 ≤ y ∧ y ≤ (tileY + 1) * g.linesPerBurst.1 - 1) ↔
      tileY = y / g.linesPerBurst.1 := by
  have hle : ∀ m : Int, m * g.linesPerBurst.1 ≤ y ↔ m ≤ y / g.linesPerBurst.1 := fun m => by
    rw [Int.le_ediv_iff_mul_le g.linesPerBurst.2.1]
  have hnext := hle (tileY + 1)
  rw [hle tileY]
  omega

/-- The columns of a tile: the output inside the input inside the band, and the input with its
pads half a window beyond the output. -/
theorem ColumnsFit.tile_columns (h : g.ColumnsFit) (hwindow : 2 * g.cohX ≤ g.tileXSize.1)
    {tileX : Int} (hX : 0 ≤ tileX) (hXlast : tileX < g.xTiles) :
    0 ≤ g.inXMin tileX ∧ g.inXMin tileX ≤ g.tileXSize.1 * tileX ∧
      g.tileXSize.1 * tileX ≤ g.outXMax tileX ∧ g.outXMax tileX ≤ g.inXMax tileX ∧
      g.inXMax tileX < g.bandXSize.1 ∧
      g.inXMin tileX - (if tileX = 0 then g.cohX else 0) = g.tileXSize.1 * tileX - g.cohX ∧
      g.inXMax tileX + (if tileX = g.xTiles - 1 then g.cohX + g.xAsymmetry else 0) =
        g.outXMax tileX + g.cohX + g.xAsymmetry := by
  obtain ⟨h0, h1, h2, h3⟩ := h.start_bounds hX (by omega)
  have hT := g.tileXSize.2.1
  have hc := g.cohX_nonneg
  have ha := g.xAsymmetry_bounds
  have hsucc : g.tileXSize.1 * (tileX + 1) = g.tileXSize.1 * tileX + g.tileXSize.1 := by ring
  have hzero : tileX = 0 → g.tileXSize.1 * tileX = 0 := fun h => by rw [h, mul_zero]
  unfold inXMin inXMax outXMax
  rw [hsucc]
  split_ifs <;> omega

/-- A pixel lies in the output of the tile at `(tileY, tileX)` when these are its burst and its
tile column. -/
theorem ColumnsFit.contains_iff (h : g.ColumnsFit) (hwindow : 2 * g.cohX ≤ g.tileXSize.1)
    {tileY tileX x y : Int} (hX : 0 ≤ tileX) (hXlast : tileX < g.xTiles) :
    (g.tileAt tileY tileX).tileOut.Contains x y ↔
      x < g.bandXSize.1 ∧ tileX = min (x / g.tileXSize.1) (g.xTiles - 1) ∧
        tileY = y / g.linesPerBurst.1 := by
  obtain ⟨_, _, _, hout, hin, _, _⟩ := h.tile_columns hwindow hX hXlast
  rw [← row_iff (g := g)]
  simp only [tileAt, Tile.Contains]
  constructor
  · rintro ⟨h1, h2, h3, h4⟩
    have hxW : x < g.bandXSize.1 := by omega
    exact ⟨hxW, (column_iff hXlast hxW).mp ⟨h1, h2⟩, h3, h4⟩
  · rintro ⟨hxW, hcol, h3, h4⟩
    obtain ⟨h1, h2⟩ := (column_iff hXlast hxW).mpr hcol
    exact ⟨h1, h2, h3, h4⟩

/-- The windows of the output pixels of a tile lie in its input rectangle with the pads. -/
theorem ColumnsFit.windows (h : g.ColumnsFit) (hwindow : 2 * g.cohX ≤ g.tileXSize.1)
    {tileY tileX : Int} (hX : 0 ≤ tileX) (hXlast : tileX < g.xTiles) {x y x' y' : Int}
    (hpix : (g.tileAt tileY tileX).tileOut.Contains x y) (hw : g.InWindow x y x' y')
    (hrow : g.cohWinAz.1 % 2 = 1 ∨ g.SameBurst y y') :
    (g.tileAt tileY tileX).padded.Contains x' y' := by
  obtain ⟨_, _, _, _, _, hleft, hright⟩ := h.tile_columns hwindow hX hXlast
  obtain ⟨hx1, hx2, hy1, hy2⟩ := hw
  have hrg := g.cohWinRg_eq
  have hcy := g.cohY_nonneg
  have hburst : y' ≤ (tileY + 1) * g.linesPerBurst.1 - 1 + g.cohY := by
    simp only [tileAt, Tile.Contains] at hpix
    rcases hrow with hodd | hsame
    · have haz : g.cohWinAz.1 = 2 * g.cohY + 1 := by
        have hpos := g.cohWinAz.2.1
        unfold cohY
        omega
      omega
    · have hj := row_iff.mp ⟨hpix.2.2.1, hpix.2.2.2⟩
      have hj' : tileY = y' / g.linesPerBurst.1 := hj.trans hsame.symm
      have hend := (row_iff.mpr hj').2
      omega
  simp only [tileAt, Tile.Contains, CohTile.padded] at hpix ⊢
  omega

/-- What holds of the tile of every cell holds of every tile. -/
theorem forall_tileAt {P : CohTile → Prop}
    (h : ∀ tileY tileX : Int, 0 ≤ tileY → tileY < g.yTiles → 0 ≤ tileX → tileX < g.xTiles →
      P (g.tileAt tileY tileX)) :
    ∀ t ∈ g.cells.map fun (tileY, tileX) => g.tileAt tileY tileX, P t := by
  intro t ht
  obtain ⟨cell, hcell, rfl⟩ := List.mem_map.mp ht
  have hbound := g.mem_cells.mp hcell
  exact h _ _ (by omega) hbound.1 (by omega) hbound.2

/-- In range, every row of tiles ends inside the band. -/
theorem InRange.row_end (h : g.InRange) {tileY : Int} (hY : tileY < g.yTiles) :
    (tileY + 1) * g.linesPerBurst.1 ≤ g.bandYSize.1 :=
  calc (tileY + 1) * g.linesPerBurst.1
      ≤ g.yTiles * g.linesPerBurst.1 :=
        Int.mul_le_mul_of_nonneg_right (by omega) g.linesPerBurst.2.1.le
    _ = g.bandYSize.1 := h.rows

/-- Two cells whose tiles share an output pixel are one cell. -/
theorem ColumnsFit.pairwise_disjoint (h : g.ColumnsFit)
    (hwindow : 2 * g.cohX ≤ g.tileXSize.1) :
    (g.cells.map fun (tileY, tileX) => g.tileAt tileY tileX).Pairwise fun t t' =>
      ∀ x y, t.tileOut.Contains x y → ¬ t'.tileOut.Contains x y := by
  rw [List.pairwise_map]
  refine g.nodup_cells.imp_of_mem fun {a b} ha hb hab x y hx hx' => hab ?_
  have hk := (g.mem_cells.mp ha).2
  have hk' := (g.mem_cells.mp hb).2
  have hcell := ((h.contains_iff hwindow (by omega) hk).mp hx).2
  have hcell' := ((h.contains_iff hwindow (by omega) hk').mp hx').2
  exact Prod.ext (by omega) (by omega)

/-- In range, the output pixels of a tile are pixels of the band. -/
theorem InRange.tileOut_subset (h : g.InRange) (hwindow : 2 * g.cohX ≤ g.tileXSize.1)
    {tileY tileX x y : Int} (hY : 0 ≤ tileY) (hYlast : tileY < g.yTiles) (hX : 0 ≤ tileX)
    (hXlast : tileX < g.xTiles) (hpix : (g.tileAt tileY tileX).tileOut.Contains x y) :
    0 ≤ x ∧ x < g.bandXSize.1 ∧ 0 ≤ y ∧ y < g.bandYSize.1 := by
  have hend := h.row_end hYlast
  have hstart : 0 ≤ tileY * g.linesPerBurst.1 := Int.mul_nonneg hY g.linesPerBurst.2.1.le
  have hleft : 0 ≤ g.tileXSize.1 * tileX := Int.mul_nonneg g.tileXSize.2.1.le hX
  have hright := ((h.columns.contains_iff hwindow hX hXlast).mp hpix).1
  simp only [tileAt, Tile.Contains] at hpix
  omega

/-- In range, a pixel of the band is an output pixel of the tile of its burst and of its tile
column, or of the last tile column where that one was merged. -/
theorem InRange.exists_tileOut (h : g.InRange) (hwindow : 2 * g.cohX ≤ g.tileXSize.1)
    {x y : Int} (hx : 0 ≤ x) (hxW : x < g.bandXSize.1) (hy : 0 ≤ y) (hyH : y < g.bandYSize.1) :
    ∃ t ∈ g.cells.map fun (tileY, tileX) => g.tileAt tileY tileX, t.tileOut.Contains x y := by
  have hn := h.nonempty
  have hcol : 0 ≤ x / g.tileXSize.1 := Int.ediv_nonneg hx g.tileXSize.2.1.le
  have hrow : 0 ≤ y / g.linesPerBurst.1 := Int.ediv_nonneg hy g.linesPerBurst.2.1.le
  have hrowlt : y / g.linesPerBurst.1 < g.yTiles := by
    rw [Int.ediv_lt_iff_lt_mul g.linesPerBurst.2.1, h.rows]
    exact hyH
  refine ⟨_, List.mem_map_of_mem (a := ((y / g.linesPerBurst.1).toNat,
    (min (x / g.tileXSize.1) (g.xTiles - 1)).toNat)) (g.mem_cells.mpr ⟨?_, ?_⟩), ?_⟩
  · show ((y / g.linesPerBurst.1).toNat : Int) < g.yTiles
    omega
  · show ((min (x / g.tileXSize.1) (g.xTiles - 1)).toNat : Int) < g.xTiles
    omega
  · apply (h.columns.contains_iff hwindow (by omega) (by omega)).mpr
    exact ⟨hxW, by omega, by omega⟩

/-- In range, the input buffer of the largest tile holds every tile. -/
theorem InRange.exists_buffer (h : g.InRange) (hwindow : 2 * g.cohX ≤ g.tileXSize.1) :
    ∃ size, maxInTileSz (g.cells.map fun (tileY, tileX) => g.tileAt tileY tileX) = .ok size ∧
      ∀ t ∈ g.cells.map fun (tileY, tileX) => g.tileAt tileY tileX,
        t.tileIn.getYSize * t.tileIn.getXSize ≤ size := by
  have hfits : ∀ t ∈ g.cells.map fun (tileY, tileX) => g.tileAt tileY tileX,
      Fits 32 (t.tileIn.getYSize * t.tileIn.getXSize) := by
    apply forall_tileAt
    intro j k _ _ hk0 hk
    obtain ⟨_, h2, h3, h4, _⟩ := h.columns.tile_columns hwindow hk0 hk
    have harea := h.area k hk0 hk
    have hnonneg : 0 ≤ g.linesPerBurst.1 * (g.inXMax k - g.inXMin k + 1) :=
      Int.mul_nonneg g.linesPerBurst.2.1.le (by omega)
    rw [tileAt_getYSize, tileAt_getXSize, fits32_iff]
    omega
  obtain ⟨size, hsize⟩ := exists_maxInTileSz 0 hfits
  exact ⟨size, hsize, fun t ht => ((maxInTileSz_spec hsize).2 t ht).2⟩

/-- In range, the tiles are a cover; of the whole windows when the azimuth window is odd. -/
theorem InRange.covers (h : g.InRange) (hnot : ¬ g.Rejected) {whole : Bool}
    (hodd : whole = true → g.cohWinAz.1 % 2 = 1) :
    g.Covers whole (g.cells.map fun (tileY, tileX) => g.tileAt tileY tileX) := by
  have hwindow := h.window hnot
  have hL := g.linesPerBurst.2.1
  refine ⟨?proper, h.columns.pairwise_disjoint hwindow, fun x y => ⟨?within, ?covered⟩,
    ?inside, ?out_in, ?windows, ?pads, h.exists_buffer hwindow⟩
  case proper =>
    apply forall_tileAt
    intro j k _ _ hk0 hk
    obtain ⟨_, _, hcol, _⟩ := h.columns.tile_columns hwindow hk0 hk
    have hsucc : (j + 1) * g.linesPerBurst.1 = j * g.linesPerBurst.1 + g.linesPerBurst.1 := by ring
    simp only [tileAt]
    omega
  case within =>
    rintro ⟨t, ht, hpix⟩
    revert t ht
    apply forall_tileAt
    intro j k hj0 hj hk0 hk hpix
    exact h.tileOut_subset hwindow hj0 hj hk0 hk hpix
  case covered =>
    rintro ⟨hx0, hxW, hy0, hyH⟩
    exact h.exists_tileOut hwindow hx0 hxW hy0 hyH
  case inside =>
    apply forall_tileAt
    intro j k hj0 hj hk0 hk
    obtain ⟨h1, _, _, _, h5, _⟩ := h.columns.tile_columns hwindow hk0 hk
    have hend := h.row_end hj
    have hstart : 0 ≤ j * g.linesPerBurst.1 := Int.mul_nonneg hj0 hL.le
    simp only [tileAt]
    omega
  case out_in =>
    apply forall_tileAt
    intro j k _ _ hk0 hk x y hpix
    obtain ⟨_, h2, _, h4, _⟩ := h.columns.tile_columns hwindow hk0 hk
    simp only [tileAt, Tile.Contains] at hpix ⊢
    omega
  case windows =>
    apply forall_tileAt
    intro j k _ _ hk0 hk x y hpix x' y' hw hrow
    exact h.columns.windows hwindow hk0 hk hpix hw (hrow.imp_left hodd)
  case pads =>
    -- a pad stands only where the input was cut at the border
    apply forall_tileAt
    intro j k _ _ _ _
    simp only [tileAt]
    refine ⟨fun hpad => ?_, fun hpad => ?_, fun _ => ⟨j, by ring⟩, fun _ => ⟨j + 1, by ring⟩⟩
    · rw [inXMin]
      split
      · rfl
      · simp_all
    · rw [inXMax]
      split
      · rfl
      · simp_all

/-! ## From the cover to the sizes -/

theorem Runnable.divides {tiles : List CohTile} (hok : g.generateTiles = .ok tiles)
    (h : g.Runnable tiles) : g.linesPerBurst.1 ∣ g.bandYSize.1 := by
  have hL := g.linesPerBurst.2.1
  have hH := g.bandYSize.2.1
  -- the burst that the last row belongs to ends inside the band
  obtain ⟨t, ht, hpix⟩ := (h.union 0 (g.bandYSize.1 - 1)).mpr
    ⟨le_refl 0, g.bandXSize.2.1, by omega, by omega⟩
  obtain ⟨cell, hcell, hcomp⟩ := g.mem_tiles hok ht
  obtain ⟨hj, _⟩ := g.mem_cells.mp hcell
  have hout := g.tileOut_of_ok hcomp
  rw [hout] at hpix
  simp only [tileAt, Tile.Contains] at hpix
  have hend : ((cell.1 : Int) + 1) * g.linesPerBurst.1 ≤ g.yTiles * g.linesPerBurst.1 :=
    Int.mul_le_mul_of_nonneg_right (by omega) hL.le
  have hfloor : g.yTiles * g.linesPerBurst.1 ≤ g.bandYSize.1 := Int.ediv_mul_le _ hL.ne'
  exact ⟨g.yTiles, by rw [mul_comm]; omega⟩

theorem Runnable.nonempty {tiles : List CohTile} (hok : g.generateTiles = .ok tiles)
    (h : g.Runnable tiles) : 1 ≤ g.xTiles ∧ 1 ≤ g.yTiles := by
  obtain ⟨t, ht, _⟩ := (h.union 0 0).mpr
    ⟨le_refl 0, g.bandXSize.2.1, le_refl 0, g.bandYSize.2.1⟩
  obtain ⟨cell, hcell, _⟩ := g.mem_tiles hok ht
  obtain ⟨hj, hk⟩ := g.mem_cells.mp hcell
  omega

/-- The tile of a column in the first burst. -/
theorem tile_of_column {tiles : List CohTile} (hok : g.generateTiles = .ok tiles)
    (hy : 1 ≤ g.yTiles) {tileX : Int} (h0 : 0 ≤ tileX) (hlt : tileX < g.xTiles) :
    ∃ t ∈ tiles, g.cohTile g.cohX g.cohY g.xTiles 0 tileX = .ok t := by
  have hcell : (0, tileX.toNat) ∈ g.cells :=
    g.mem_cells.mpr ⟨by simp only; omega, by simp only; omega⟩
  have h := g.cohTile_of_mem_cells hok hcell
  simpa [Int.toNat_of_nonneg h0] using h

theorem Runnable.columns {tiles : List CohTile} (hok : g.generateTiles = .ok tiles)
    (h : g.Runnable tiles) : g.ColumnsFit := by
  obtain ⟨hn, hy⟩ := h.nonempty hok
  have hlast : g.tileXSize.1 * (g.xTiles - 1) < g.bandXSize.1 := by
    obtain ⟨t, ht, hcomp⟩ :=
      tile_of_column hok hy (by omega) (show g.xTiles - 1 < g.xTiles by omega)
    have hproper := (h.proper t ht).1
    rw [g.tileOut_of_ok hcomp] at hproper
    simp only [tileAt, outXMax, if_true] at hproper
    omega
  refine ⟨hlast, fun h2 => ?_⟩
  -- the input of the tile before the last one ends inside the band
  have hT := g.tileXSize.2.1
  have hnarrow : ¬ g.tileXSize.1 ≥ g.bandXSize.1 := fun hw => by
    have hmul : g.tileXSize.1 * 1 ≤ g.tileXSize.1 * (g.xTiles - 1) :=
      Int.mul_le_mul_of_nonneg_left (by omega) hT.le
    omega
  obtain ⟨t, ht, hcomp⟩ := tile_of_column hok hy (show 0 ≤ g.xTiles - 2 by omega) (by omega)
  have hinside := (h.inside t ht).2.1
  rw [g.eq_tileAt_of_ok hcomp fun hw => absurd hw hnarrow] at hinside
  simp only [tileAt, inXMax] at hinside
  rw [if_neg (by omega), show g.xTiles - 2 + 1 = g.xTiles - 1 by ring] at hinside
  omega

theorem Runnable.tile_eq {tiles : List CohTile} (hok : g.generateTiles = .ok tiles)
    (h : g.Runnable tiles) {tileX : Int} (h0 : 0 ≤ tileX) (hlt : tileX < g.xTiles) :
    g.tileAt 0 tileX ∈ tiles := by
  obtain ⟨hn, hy⟩ := h.nonempty hok
  obtain ⟨t, ht, hcomp⟩ := tile_of_column hok hy h0 hlt
  have heq := g.eq_tileAt_of_ok hcomp fun hw => by
    have hone := (h.columns hok).wide hn hw
    omega
  exact heq ▸ ht

theorem Runnable.inRange {tiles : List CohTile} (hok : g.generateTiles = .ok tiles)
    (h : g.Runnable tiles) : g.InRange := by
  obtain ⟨hrg, haz, _, hcount, hreserve⟩ := g.generateTiles_ok hok
  refine ⟨hrg, haz, hcount, hreserve, h.divides hok, (h.nonempty hok).1, h.columns hok,
    fun tileX h0 hlt => ?_⟩
  obtain ⟨size, hsize, _⟩ := h.buffer
  have hfits := ((maxInTileSz_spec hsize).2 _ (h.tile_eq hok h0 hlt)).1
  have harea := (fits32_iff.mp hfits).2
  rwa [tileAt_getYSize, tileAt_getXSize] at harea

/-- The lowest row of a whole window of even height lies below the pads. -/
theorem Covers.odd {tiles : List CohTile} (hok : g.generateTiles = .ok tiles)
    (h : g.Covers true tiles) : g.cohWinAz.1 % 2 = 1 := by
  have hL := g.linesPerBurst.2.1
  have hwin := g.cohWinRg.2.1
  have haz := g.cohWinAz.2.1
  have hn := (h.runnable.nonempty hok).1
  have hmem := h.runnable.tile_eq hok (le_refl 0) (by omega)
  have hproper := (h.proper _ hmem).1
  have hcover := h.windows _ hmem 0 (g.linesPerBurst.1 - 1) ?_ (-g.cohX)
    (g.linesPerBurst.1 - 1 - g.cohY + g.cohWinAz.1 - 1) ⟨by omega, by omega, by omega, by omega⟩
    (.inl rfl)
  · simp only [tileAt, CohTile.padded, Tile.Contains] at hcover
    unfold cohY at hcover
    omega
  · simp only [tileAt, Tile.Contains] at hproper ⊢
    omega

/-! ## Sizes that single precision represents

Up to `2 ^ 24` the tile count is the exact ceiling, and the merge of a narrow last tile leaves
every tile its halo. -/

theorem tileCount_bounds {w t : Int} (hw : 0 < w) (ht : 0 < t) (hw24 : w ≤ 2 ^ 24)
    (ht24 : t ≤ 2 ^ 24) : t * (tileCount w t - 1) < w ∧ w ≤ t * tileCount w t := by
  have hexact : tileCount w t = ⌈(w / t : ℚ)⌉ := by
    rw [tileCount, Binary32.ofInt_eq hw.le hw24, Binary32.ofInt_eq ht.le ht24]
    exact Binary32.ceil_round_div hw ht hw24
  have ht' : (0 : ℚ) < t := by exact_mod_cast ht
  obtain ⟨hlt, hle⟩ := Int.ceil_eq_iff.mp hexact.symm
  rw [lt_div_iff₀ ht'] at hlt
  rw [div_le_iff₀ ht'] at hle
  refine ⟨?_, ?_⟩
  · rw [mul_comm]
    exact_mod_cast hlt
  · rw [mul_comm]
    exact_mod_cast hle

theorem columnsFit_of_exact (hW : g.bandXSize.1 ≤ 2 ^ 24) (hT : g.tileXSize.1 ≤ 2 ^ 24)
    (hwindow : 2 * g.cohX ≤ g.tileXSize.1) (hband : 2 * g.cohX < g.bandXSize.1) :
    1 ≤ g.xTiles ∧ g.ColumnsFit := by
  have hW0 := g.bandXSize.2.1
  have hT0 := g.tileXSize.2.1
  have hc := g.cohX_nonneg
  have ha := g.xAsymmetry_bounds
  obtain ⟨hlow, hhigh⟩ := tileCount_bounds hW0 hT0 hW hT
  have hdiv := Int.emod_add_mul_ediv g.bandXSize.1 g.tileXSize.1
  have hr0 := Int.emod_nonneg g.bandXSize.1 hT0.ne'
  have hrT := Int.emod_lt_of_pos g.bandXSize.1 hT0
  have hq0 : 0 ≤ g.bandXSize.1 / g.tileXSize.1 := Int.ediv_nonneg hW0.le hT0.le
  have hsplit : ∀ m : Int, g.tileXSize.1 * (m - 1) = g.tileXSize.1 * m - g.tileXSize.1 :=
    fun m => by ring
  set q := g.bandXSize.1 / g.tileXSize.1 with hq
  set r := g.bandXSize.1 % g.tileXSize.1 with hr
  -- the count is the quotient, plus one for a remainder
  have hcount : tileCount g.bandXSize.1 g.tileXSize.1 = if r = 0 then q else q + 1 := by
    have hge : ∀ m : Int, g.tileXSize.1 * (m - 1) < g.bandXSize.1 →
        g.bandXSize.1 ≤ g.tileXSize.1 * m →
        tileCount g.bandXSize.1 g.tileXSize.1 = m := by
      intro m h1 h2
      have h3 : m - 1 < tileCount g.bandXSize.1 g.tileXSize.1 :=
        lt_of_mul_lt_mul_left (lt_of_lt_of_le h1 hhigh) hT0.le
      have h4 : tileCount g.bandXSize.1 g.tileXSize.1 - 1 < m :=
        lt_of_mul_lt_mul_left (lt_of_lt_of_le hlow h2) hT0.le
      omega
    split
    · exact hge q (by rw [hsplit]; omega) (by omega)
    · exact hge (q + 1) (by rw [hsplit, mul_add]; omega) (by rw [mul_add]; omega)
  have hq1 : r ≤ g.cohX * 2 → 1 ≤ q := fun hle => by
    by_contra hlt
    have hzero : q = 0 := by omega
    rw [hzero, mul_zero] at hdiv
    omega
  have hn : g.xTiles = if r = 0 ∨ r ≤ g.cohX * 2 then q else q + 1 := by
    unfold xTiles mergedTiles
    rw [hcount, ← hr]
    by_cases h0 : r = 0 <;> by_cases h1 : r ≤ g.cohX * 2 <;> simp [h0, h1]
  by_cases hmerge : r = 0 ∨ r ≤ g.cohX * 2
  · rw [if_pos hmerge] at hn
    have hq1' := hq1 (by omega)
    rw [hn]
    refine ⟨hq1', ⟨?_, fun _ => ?_⟩⟩ <;> rw [hn, hsplit] <;> omega
  · rw [if_neg hmerge] at hn
    rw [hn]
    refine ⟨by omega, ⟨?_, fun _ => ?_⟩⟩ <;> rw [hn, add_sub_cancel_right] <;> omega

/-! ## Results -/

theorem tilesCorrect_iff (whole : Bool) :
    g.TilesCorrect whole ↔
      g.Rejected ∨ (g.InRange ∧ (whole = true → g.cohWinAz.1 % 2 = 1)) := by
  constructor
  · rintro (hthrows | ⟨tiles, hok, hcov⟩)
    · exact .inl (g.generateTiles_eq_throws_iff.mp hthrows)
    · refine .inr ⟨hcov.runnable.inRange hok, fun hwhole => ?_⟩
      subst hwhole
      exact hcov.odd hok
  · intro h
    by_cases hrej : g.Rejected
    · exact .inl (g.generateTiles_eq_throws_iff.mpr hrej)
    · obtain ⟨hrange, hodd⟩ := h.resolve_left hrej
      exact .inr ⟨_, hrange.generateTiles_eq hrej, hrange.covers hrej hodd⟩

/-- **When the coherence tiles are a cover with halo.** A generator that does not throw returns
tiles that partition the band, lie in it with their halo, hold the windows of their pixels
inside the burst and fit the buffer of the runner, exactly when its sizes are in range. They
hold the whole windows, rows outside the burst included, exactly when the azimuth window is
odd as well. -/
theorem generateTiles_cover_iff (g : CohTilesGenerator) :
    (g.TilesCorrect false ↔ g.Rejected ∨ g.InRange) ∧
      (g.TilesCorrect true ↔ g.Rejected ∨ (g.InRange ∧ g.cohWinAz.1 % 2 = 1)) := by
  refine ⟨?_, ?_⟩
  · rw [tilesCorrect_iff]
    simp
  · rw [tilesCorrect_iff]
    simp

/-- A band of 65536 columns in tiles of one column: the tile count does not fit a `short`. -/
def manyTiles : CohTilesGenerator where
  bandXSize := ⟨65536, by decide⟩
  bandYSize := ⟨1, one_isSize⟩
  tileXSize := ⟨1, one_isSize⟩
  tileYSize := ⟨1, one_isSize⟩
  cohWinRg := ⟨1, one_isSize⟩
  cohWinAz := ⟨1, one_isSize⟩
  linesPerBurst := ⟨1, one_isSize⟩

theorem not_tilesCorrect_manyTiles :
    ¬ manyTiles.TilesCorrect false ∧ ¬ manyTiles.TilesCorrect true := by
  have hcount : tileCount 65536 1 = 65536 := by
    rw [tileCount, Binary32.ofInt_eq (by norm_num) (by norm_num),
      Binary32.ofInt_eq (by norm_num) (by norm_num), Int.cast_one, div_one,
      Binary32.round_intCast (by norm_num) (by norm_num), Int.ceil_intCast]
  have hrej : ¬ manyTiles.Rejected := by decide
  have hrange : ¬ manyTiles.InRange := fun h => by
    have hle := h.count
    simp only [manyTiles, hcount] at hle
    exact absurd hle (by decide)
  refine ⟨fun h => ?_, fun h => ?_⟩
  · exact (((tilesCorrect_iff false).mp h).elim hrej fun hr => hrange hr.1)
  · exact (((tilesCorrect_iff true).mp h).elim hrej fun hr => hrange hr.1)

end CohTilesGenerator

end Alus.Coherence
