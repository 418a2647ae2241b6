import Alus.ThermalNoise.NoiseKernels

/-!
# Noise table of an SLC tile

`BuildNoiseLutForTOPSSLC` fills the noise table of one tile of a burst product. Every burst has its
range noise vector; a pixel takes the product of the azimuth noise of its line and the range noise
of its sample in the vector of its burst. The interpolated vectors are stored for all the bursts of
the product, and computed for those that the tile touches. Frees and the warnings are left out.
-/

namespace Alus.ThermalNoise

open Alus.Lib

/-! ## The table -/

/-- The noise metadata of a burst product. The table takes the first azimuth vector: there is
one. -/
structure SlcNoiseInfo (T : Type) [Field T] [LinearOrder T] where
  linesPerBurst : Int
  noiseAzimuthVectors : List (NoiseAzimuthVector T)
  burstToRangeVectorMap : List (NoiseVector T)
  azimuthListed : noiseAzimuthVectors ≠ []

/-- How the device runs the four kernels of the table. -/
structure SlcDevice where
  order : StoreOrder
  azimuth : Shares
  sampleIndex : Shares
  rangeRows : Shares
  rangeColumns : Shares
  matrixRows : Shares
  matrixColumns : Shares

/-- `a / b` of two `int`. -/
def quotient (a b : Int) : Outcome Int :=
  if b = 0 then .undefined else .ok (a.tdiv b)

def calculateBurstIndices (tile : Rectangle) (linesPerBurst : Int) : Outcome (List Int) :=
  if linesPerBurst ≤ 0 then .throws
  else do
    let firstBurstIndex ← quotient tile.y linesPerBurst
    let lastBurstIndex ← quotient (tile.y + tile.height - 1) linesPerBurst
    return intRange firstBurstIndex (lastBurstIndex + 1)

section Table

variable {T : Type} [Field T] [LinearOrder T]

/-- A row of the matrix, as far as a thread has a share of it. -/
def matrixRow (tile : Rectangle) (linesPerBurst : Int) (azimuth : Nat → Option T)
    (ranges : Nat × Nat → Option T) (columns : List Nat) (y : Nat) :
    Outcome (List ((Nat × Nat) × T)) := do
  let burstIndex ← quotient (y + tile.y) linesPerBurst
  Outcome.collect (columns.map fun (x : Nat) => do
    let a ← readCell azimuth y
    let r ← readCell ranges (burstIndex.toNat, x)
    return ((y, x), a * r))

def calculateNoiseMatrixKernelByBurst (tile : Rectangle) (linesPerBurst : Int)
    (azimuth : Nat → Option T) (ranges : Nat × Nat → Option T) (thread : List Nat × List Nat) :
    Outcome (List ((Nat × Nat) × T)) := do
  let rows ← Outcome.collect
    (thread.1.map (matrixRow tile linesPerBurst azimuth ranges thread.2))
  return rows.flatten

def calculateNoiseMatrix (dev : SlcDevice) (tile : Rectangle) (linesPerBurst : Int)
    (azimuth : Nat → Option T) (ranges : Nat × Nat → Option T) : Outcome (Nat × Nat → Option T) :=
  launchThreads dev.order (calculateNoiseMatrixKernelByBurst tile linesPerBurst azimuth ranges)
    ((dev.matrixRows tile.height.toNat).shares ×ˢ (dev.matrixColumns tile.width.toNat).shares)
    fun _ => none

/-- The vectors and the matrix, once the map is known to have the bursts. -/
def fillNoiseMatrix (dev : SlcDevice) (tile : Rectangle) (info : SlcNoiseInfo T) :
    Outcome (Nat × Nat → Option T) := do
  let v ← vectorAt info.noiseAzimuthVectors 0
  let azimuth ← launchInterpolateNoiseAzimuthVectorKernel dev.order dev.azimuth v tile.y
    (tile.y + tile.height + 1) (getLineIndex tile.y v.lines)
  let burstIndices ← calculateBurstIndices tile info.linesPerBurst
  let sampleIndices ← launchGetSampleIndexKernel dev.order dev.sampleIndex tile
    info.burstToRangeVectorMap burstIndices
  let ranges ← launchInterpolateNoiseRangeVectorsKernel dev.order dev.rangeRows dev.rangeColumns
    tile burstIndices sampleIndices info.burstToRangeVectorMap
  calculateNoiseMatrix dev tile info.linesPerBurst azimuth ranges

def buildNoiseLutForTOPSSLC (dev : SlcDevice) (tile : Rectangle) (info : SlcNoiseInfo T) :
    Outcome (Nat × Nat → Option T) := do
  let firstBurstIndex ← quotient tile.y info.linesPerBurst
  let lastBurstIndex ← quotient (tile.y + tile.height - 1) info.linesPerBurst
  if info.burstToRangeVectorMap = [] ∨ firstBurstIndex < 0 ∨
      lastBurstIndex ≥ info.burstToRangeVectorMap.length then .throws
  else fillNoiseMatrix dev tile info

end Table

/-! ## The burst of a line -/

section Quotient

variable {a b : Int}

theorem quotient_of_ne_zero (h : b ≠ 0) : quotient a b = .ok (a.tdiv b) := if_neg h

theorem quotient_of_pos (ha : 0 ≤ a) (hb : 0 < b) : quotient a b = .ok (a / b) := by
  rw [quotient_of_ne_zero hb.ne', Int.tdiv_eq_ediv_of_nonneg ha]

end Quotient

/-- A tile with a non-negative origin and a positive size. -/
structure ImageTile extends Rectangle where
  xNonneg : 0 ≤ x
  yNonneg : 0 ≤ y
  widthPos : 0 < width
  heightPos : 0 < height

section Bursts

variable (tile : ImageTile) {linesPerBurst : Int}

/-- The bursts of the list are those of the tile's lines. -/
theorem mem_burstIndices (h : 0 < linesPerBurst) {b : Int} :
    b ∈ intRange (tile.y / linesPerBurst) ((tile.y + tile.height - 1) / linesPerBurst + 1) ↔
      ∃ line, tile.y ≤ line ∧ line < tile.y + tile.height ∧ b = line / linesPerBurst := by
  rw [mem_intRange]
  constructor
  · intro ⟨hfirst, hlast⟩
    -- the first line of the burst, or of the tile if that comes later
    have hstart : b * linesPerBurst ≤ tile.y + tile.height - 1 :=
      (Int.le_ediv_iff_mul_le h).mp (by omega)
    have hend : tile.y < (b + 1) * linesPerBurst := (Int.ediv_lt_iff_lt_mul h).mp (by omega)
    have hheight := tile.heightPos
    have hburst : (b + 1) * linesPerBurst = b * linesPerBurst + linesPerBurst := by
      rw [Int.add_mul, Int.one_mul]
    refine ⟨max tile.y (b * linesPerBurst), le_max_left _ _, by omega, le_antisymm ?_ ?_⟩
    · exact (Int.le_ediv_iff_mul_le h).mpr (le_max_right _ _)
    · have hlt : max tile.y (b * linesPerBurst) / linesPerBurst < b + 1 :=
        (Int.ediv_lt_iff_lt_mul h).mpr (by omega)
      omega
  · intro ⟨line, hfirst, hlast, hb⟩
    have hlow := Int.ediv_le_ediv h hfirst
    have hhigh := Int.ediv_le_ediv h (show line ≤ tile.y + tile.height - 1 by omega)
    omega

theorem calculateBurstIndices_of_pos (h : 0 < linesPerBurst) :
    calculateBurstIndices tile.toRectangle linesPerBurst = .ok (intRange (tile.y / linesPerBurst)
      ((tile.y + tile.height - 1) / linesPerBurst + 1)) := by
  have hy := tile.yNonneg
  have hheight := tile.heightPos
  rw [calculateBurstIndices, if_neg (by omega), quotient_of_pos hy h,
    quotient_of_pos (by omega) h]
  rfl

end Bursts

/-! ## The matrix -/

section Matrix

variable {T : Type} [Field T] [LinearOrder T]

/-- The azimuth vector that the table is built with. -/
def SlcNoiseInfo.azimuthVector (info : SlcNoiseInfo T) : NoiseAzimuthVector T :=
  info.noiseAzimuthVectors.head info.azimuthListed

theorem vectorAt_azimuthVector (info : SlcNoiseInfo T) :
    vectorAt info.noiseAzimuthVectors 0 = .ok info.azimuthVector := by
  have hpos := List.length_pos_iff.mpr info.azimuthListed
  rw [SlcNoiseInfo.azimuthVector, List.head_eq_getElem]
  exact vectorAt_natCast hpos

/-- The range vector of the burst that a line is in. -/
def SlcNoiseInfo.rangeVector? (info : SlcNoiseInfo T) (line : Int) : Option (NoiseVector T) :=
  info.burstToRangeVectorMap[(line / info.linesPerBurst).toNat]?

/-- The noise of the pixel in a line and at a sample, for the range vector of its burst. -/
def SlcNoiseInfo.noise (info : SlcNoiseInfo T) (v : NoiseVector T) (line sample : Int) : T :=
  info.azimuthVector.noise line * v.noise sample

/-- What the matrix kernel leaves when both interpolated vectors are there. -/
theorem exists_matrix (dev : SlcDevice) (tile : ImageTile) (info : SlcNoiseInfo T)
    (hlines : 0 < info.linesPerBurst) {azimuth : Nat → Option T} {ranges : Nat × Nat → Option T}
    (hvectors : ∀ y < tile.height.toNat, ∃ v, info.rangeVector? (y + tile.y) = some v)
    (hazimuth : ∀ y < tile.height.toNat,
      azimuth y = some (info.azimuthVector.noise (y + tile.y)))
    (hranges : ∀ y < tile.height.toNat, ∀ v, info.rangeVector? (y + tile.y) = some v →
      ∀ x < tile.width.toNat,
        ranges (((y + tile.y) / info.linesPerBurst).toNat, x) = some (v.noise (x + tile.x))) :
    ∃ m, calculateNoiseMatrix dev tile.toRectangle info.linesPerBurst azimuth ranges = .ok m ∧
      ∀ y < tile.height.toNat, ∀ v, info.rangeVector? (y + tile.y) = some v →
        ∀ x < tile.width.toNat, m (y, x) = some (info.noise v (y + tile.y) (x + tile.x)) := by
  let value : Nat × Nat → T := fun k =>
    ((info.rangeVector? (k.1 + tile.y)).map
      fun v => info.noise v (k.1 + tile.y) (k.2 + tile.x)).getD 0
  have hvalue : ∀ (y x : Nat) v, info.rangeVector? (y + tile.y) = some v →
      value (y, x) = info.noise v (y + tile.y) (x + tile.x) := by
    intro y x v hv
    simp only [value, hv, Option.map_some, Option.getD_some]
  -- a thread stores the values of the rows and columns it has a share of
  have hkernel : ∀ thread ∈
      (dev.matrixRows tile.height.toNat).shares ×ˢ (dev.matrixColumns tile.width.toNat).shares,
      calculateNoiseMatrixKernelByBurst tile.toRectangle info.linesPerBurst azimuth ranges thread =
        .ok ((thread.1 ×ˢ thread.2).map fun k => (k, value k)) := by
    intro thread hthread
    obtain ⟨hrow, hcolumn⟩ := List.mem_product.mp hthread
    have hrows : Outcome.collect (thread.1.map
        (matrixRow tile.toRectangle info.linesPerBurst azimuth ranges thread.2)) =
        .ok (thread.1.map fun y => thread.2.map fun x => ((y, x), value (y, x))) := by
      rw [Outcome.collect_eq_ok, List.map_map]
      refine List.map_congr_left fun y hmemRow => ?_
      have hy := (dev.matrixRows tile.height.toNat).lt_of_mem hrow hmemRow
      have hyTile := tile.yNonneg
      obtain ⟨v, hv⟩ := hvectors y hy
      rw [matrixRow, quotient_of_pos (by omega) hlines, Outcome.ok_bind, Function.comp_apply,
        Outcome.collect_eq_ok, List.map_map]
      refine List.map_congr_left fun x hmemColumn => ?_
      have hx := (dev.matrixColumns tile.width.toNat).lt_of_mem hcolumn hmemColumn
      simp only [Function.comp_apply, readCell_eq_ok.mpr (hazimuth y hy),
        readCell_eq_ok.mpr (hranges y hy v hv x hx), Outcome.ok_bind, hvalue y x v hv]
      rfl
    rw [calculateNoiseMatrixKernelByBurst, hrows, Outcome.ok_bind, Outcome.pure_eq]
    simp only [SProd.sprod, List.product, List.flatMap, List.map_flatten, List.map_map,
      Function.comp_def]
  obtain ⟨m, hm, hstored, -⟩ := exists_launchThreads dev.order _ hkernel fun _ => none
  refine ⟨m, hm, fun y hy v hv x hx => ?_⟩
  -- every element is in the share of some thread
  obtain ⟨row, hrow, hmemRow⟩ := (dev.matrixRows tile.height.toNat).exists_share.mpr hy
  obtain ⟨column, hcolumn, hmemColumn⟩ := (dev.matrixColumns tile.width.toNat).exists_share.mpr hx
  rw [hstored (row, column) (List.mem_product.mpr ⟨hrow, hcolumn⟩) (y, x)
    (List.mem_product.mpr ⟨hmemRow, hmemColumn⟩), hvalue y x v hv]

/-- A tile whose bursts the map does not all have, or without a positive number of lines. -/
def SlcNoiseInfo.Refuses (info : SlcNoiseInfo T) (tile : Rectangle) : Prop :=
  info.linesPerBurst ≤ 0 ∨ ∃ line, tile.y ≤ line ∧ line < tile.y + tile.height ∧
    info.rangeVector? line = none

theorem refuses_iff (tile : ImageTile) (info : SlcNoiseInfo T) (hlines : 0 < info.linesPerBurst) :
    info.Refuses tile.toRectangle ↔
      info.burstToRangeVectorMap.length ≤ (tile.y + tile.height - 1) / info.linesPerBurst := by
  have hy := tile.yNonneg
  have hheight := tile.heightPos
  have hnone : ∀ line, 0 ≤ line → (info.rangeVector? line = none ↔
      info.burstToRangeVectorMap.length ≤ line / info.linesPerBurst) := by
    intro line hline
    have hburst := Int.ediv_nonneg hline hlines.le
    rw [SlcNoiseInfo.rangeVector?, List.getElem?_eq_none_iff]
    omega
  constructor
  · intro hrefuses
    rcases hrefuses with hle | ⟨line, hfirst, hlast, hmissing⟩
    · omega
    · have hmono := Int.ediv_le_ediv hlines (show line ≤ tile.y + tile.height - 1 by omega)
      exact ((hnone line (by omega)).mp hmissing).trans hmono
  · intro hle
    exact .inr ⟨tile.y + tile.height - 1, by omega, by omega, (hnone _ (by omega)).mpr hle⟩

variable [IsStrictOrderedRing T]

/-- The whole computation, for a tile whose bursts the map has. -/
theorem exists_fillNoiseMatrix (dev : SlcDevice) (tile : ImageTile) (info : SlcNoiseInfo T)
    (haccepts : ¬ info.Refuses tile.toRectangle) :
    ∃ m, fillNoiseMatrix dev tile.toRectangle info = .ok m ∧
      ∀ y < tile.height.toNat, ∃ v, info.rangeVector? (y + tile.y) = some v ∧
        ∀ x < tile.width.toNat, m (y, x) = some (info.noise v (y + tile.y) (x + tile.x)) := by
  have hlines : 0 < info.linesPerBurst := not_le.mp fun hle => haccepts (.inl hle)
  have hfits := mt (refuses_iff tile info hlines).mpr haccepts
  have hy := tile.yNonneg
  have hheight := tile.heightPos
  set bursts := intRange (tile.y / info.linesPerBurst)
    ((tile.y + tile.height - 1) / info.linesPerBurst + 1) with hbursts
  -- the lines of the tile are in the bursts that were counted
  have hmem : ∀ y < tile.height.toNat, (y + tile.y) / info.linesPerBurst ∈ bursts := fun y hlt =>
    (mem_burstIndices tile hlines).mpr ⟨y + tile.y, by omega, by omega, rfl⟩
  -- and these have range vectors, since the tile is not refused
  have hinside : ∀ b ∈ bursts, 0 ≤ b ∧ b < info.burstToRangeVectorMap.length := by
    intro b hb
    have hfirst := Int.ediv_nonneg hy hlines.le
    rw [hbursts, mem_intRange] at hb
    omega
  have hvectors : ∀ y < tile.height.toNat, ∃ v, info.rangeVector? (y + tile.y) = some v := by
    intro y hlt
    have hburst := hinside _ (hmem y hlt)
    exact ⟨_, List.getElem?_eq_getElem (by omega)⟩
  obtain ⟨azimuth, hazimuth, hlineNoise⟩ := exists_azimuthLaunch dev.order dev.azimuth
    info.azimuthVector (show tile.y ≤ tile.y + tile.height + 1 by omega)
  obtain ⟨sampleIndices, ranges, hindices, hranges, hsampleNoise⟩ :=
    exists_rangeLaunch dev.order dev.sampleIndex dev.rangeRows dev.rangeColumns tile.toRectangle
      tile.widthPos (List.ne_nil_of_mem (hmem 0 (by omega))) hinside
  obtain ⟨m, hm, hmatrix⟩ := exists_matrix dev tile info hlines hvectors
    (fun y hlt => hlineNoise y (by omega)) fun y hlt v hv x hx =>
      hsampleNoise _ (hmem y hlt) v hv x hx
  refine ⟨m, ?_, fun y hlt => ?_⟩
  · rw [fillNoiseMatrix, vectorAt_azimuthVector, Outcome.ok_bind, hazimuth, Outcome.ok_bind,
      calculateBurstIndices_of_pos tile hlines, Outcome.ok_bind, ← hbursts, hindices,
      Outcome.ok_bind, hranges, Outcome.ok_bind]
    exact hm
  · obtain ⟨v, hv⟩ := hvectors y hlt
    exact ⟨v, hv, hmatrix y hlt v hv⟩

/-! ## What is returned and what is refused -/

omit [IsStrictOrderedRing T] in
theorem build_of_zero {dev : SlcDevice} {tile : Rectangle} {info : SlcNoiseInfo T}
    (h : info.linesPerBurst = 0) : buildNoiseLutForTOPSSLC dev tile info = .undefined := by
  rw [buildNoiseLutForTOPSSLC, h]
  rfl

/-- A negative number of lines is refused, by the first check or by the list of the bursts. -/
theorem build_of_neg (dev : SlcDevice) (tile : ImageTile) {info : SlcNoiseInfo T}
    (h : info.linesPerBurst < 0) :
    buildNoiseLutForTOPSSLC dev tile.toRectangle info = .throws := by
  have hheight := tile.heightPos
  rw [buildNoiseLutForTOPSSLC, quotient_of_ne_zero h.ne, quotient_of_ne_zero h.ne]
  simp only [Outcome.ok_bind]
  split
  · rfl
  · obtain ⟨azimuth, hazimuth, -⟩ := exists_azimuthLaunch dev.order dev.azimuth
      info.azimuthVector (show tile.y ≤ tile.y + tile.height + 1 by omega)
    rw [fillNoiseMatrix, vectorAt_azimuthVector, Outcome.ok_bind, hazimuth, Outcome.ok_bind,
      calculateBurstIndices, if_pos h.le]
    rfl

omit [IsStrictOrderedRing T] in
theorem build_of_pos (dev : SlcDevice) (tile : ImageTile) {info : SlcNoiseInfo T}
    (h : 0 < info.linesPerBurst) :
    (info.Refuses tile.toRectangle ∧
      buildNoiseLutForTOPSSLC dev tile.toRectangle info = .throws) ∨
    (¬ info.Refuses tile.toRectangle ∧ buildNoiseLutForTOPSSLC dev tile.toRectangle info =
      fillNoiseMatrix dev tile.toRectangle info) := by
  have hy := tile.yNonneg
  have hheight := tile.heightPos
  have hfirst := Int.ediv_nonneg hy h.le
  have hlast := Int.ediv_nonneg (show 0 ≤ tile.y + tile.height - 1 by omega) h.le
  rw [buildNoiseLutForTOPSSLC, quotient_of_pos hy h, quotient_of_pos (by omega) h,
    refuses_iff tile info h]
  simp only [Outcome.ok_bind]
  by_cases hmissing : (info.burstToRangeVectorMap.length : Int) ≤
      (tile.y + tile.height - 1) / info.linesPerBurst
  · exact .inl ⟨hmissing, if_pos (.inr (.inr hmissing))⟩
  · refine .inr ⟨hmissing, if_neg ?_⟩
    rintro (hempty | hneg | hge)
    · rw [hempty, List.length_nil] at hmissing
      exact hmissing hlast
    · omega
    · exact hmissing hge

/-- The table is refused for the tiles it cannot be computed for and no others; else every pixel of
the tile has its noise, and another tile with the pixel gives it the same. A computation that read
a vector it has not filled would not return. -/
structure LutComplete (info : SlcNoiseInfo T) (tile : ImageTile) : Prop where
  refused : ∀ dev, buildNoiseLutForTOPSSLC dev tile.toRectangle info = .throws ↔
    info.Refuses tile.toRectangle
  filled : ∀ dev, ¬ info.Refuses tile.toRectangle →
    ∃ m, buildNoiseLutForTOPSSLC dev tile.toRectangle info = .ok m ∧
      ∀ line sample, tile.Contains sample line → ∃ v, info.rangeVector? line = some v ∧
        m ((line - tile.y).toNat, (sample - tile.x).toNat) = some (info.noise v line sample)
  shared : ∀ dev dev' (tile' : ImageTile) m m',
    buildNoiseLutForTOPSSLC dev tile.toRectangle info = .ok m →
    buildNoiseLutForTOPSSLC dev' tile'.toRectangle info = .ok m' →
    ∀ line sample, tile.Contains sample line → tile'.Contains sample line →
      m ((line - tile.y).toNat, (sample - tile.x).toNat) =
        m' ((line - tile'.y).toNat, (sample - tile'.x).toNat)

theorem build_filled (dev : SlcDevice) (tile : ImageTile) {info : SlcNoiseInfo T}
    (haccepts : ¬ info.Refuses tile.toRectangle) :
    ∃ m, buildNoiseLutForTOPSSLC dev tile.toRectangle info = .ok m ∧
      ∀ line sample, tile.Contains sample line → ∃ v, info.rangeVector? line = some v ∧
        m ((line - tile.y).toNat, (sample - tile.x).toNat) = some (info.noise v line sample) := by
  have hlines : 0 < info.linesPerBurst := not_le.mp fun hle => haccepts (.inl hle)
  rcases build_of_pos dev tile hlines with ⟨hrefuses, -⟩ | ⟨-, hbuild⟩
  · exact absurd hrefuses haccepts
  · obtain ⟨m, hm, hnoise⟩ := exists_fillNoiseMatrix dev tile info haccepts
    refine ⟨m, hbuild.trans hm, fun line sample hin => ?_⟩
    obtain ⟨hleft, hright, htop, hbottom⟩ := hin
    obtain ⟨v, hv, hrow⟩ := hnoise (line - tile.y).toNat (by omega)
    have hcell := hrow (sample - tile.x).toNat (by omega)
    rw [show ((line - tile.y).toNat : Int) + tile.y = line by omega] at hv hcell
    rw [show ((sample - tile.x).toNat : Int) + tile.x = sample by omega] at hcell
    exact ⟨v, hv, hcell⟩

theorem lutComplete_of_ne_zero {info : SlcNoiseInfo T} (tile : ImageTile)
    (h : info.linesPerBurst ≠ 0) : LutComplete info tile where
  refused dev := by
    rcases lt_or_gt_of_ne h with hneg | hpos
    · exact ⟨fun _ => .inl hneg.le, fun _ => build_of_neg dev tile hneg⟩
    · rcases build_of_pos dev tile hpos with ⟨hrefuses, hthrows⟩ | ⟨haccepts, -⟩
      · exact ⟨fun _ => hrefuses, fun _ => hthrows⟩
      · obtain ⟨m, hm, -⟩ := build_filled dev tile haccepts
        refine ⟨fun hthrows => ?_, fun hrefuses => absurd hrefuses haccepts⟩
        rw [hm] at hthrows
        cases hthrows
  filled dev haccepts := build_filled dev tile haccepts
  shared dev dev' tile' m m' hm hm' line sample hin hin' := by
    have haccepts : ∀ dev (t : ImageTile) m,
        buildNoiseLutForTOPSSLC dev t.toRectangle info = .ok m → ¬ info.Refuses t.toRectangle := by
      intro dev t m hm hrefuses
      rcases lt_or_gt_of_ne h with hneg | hpos
      · rw [build_of_neg dev t hneg] at hm
        cases hm
      · rcases build_of_pos dev t hpos with ⟨-, hthrows⟩ | ⟨haccepts, -⟩
        · rw [hthrows] at hm
          cases hm
        · exact haccepts hrefuses
    obtain ⟨m₁, hm₁, hnoise⟩ := build_filled dev tile (haccepts dev tile m hm)
    obtain ⟨m₂, hm₂, hnoise'⟩ := build_filled dev' tile' (haccepts dev' tile' m' hm')
    rw [hm, Outcome.ok.injEq] at hm₁
    rw [hm', Outcome.ok.injEq] at hm₂
    obtain ⟨v, hv, hcell⟩ := hnoise line sample hin
    obtain ⟨v', hv', hcell'⟩ := hnoise' line sample hin'
    rw [hv, Option.some.injEq] at hv'
    rw [hm₁, hm₂, hcell, hcell', hv']

/-- The check of the number of lines comes after the first division by it. -/
theorem lutComplete_iff (info : SlcNoiseInfo T) (tile : ImageTile) :
    LutComplete info tile ↔ info.linesPerBurst ≠ 0 := by
  refine ⟨fun hcomplete hzero => ?_, lutComplete_of_ne_zero tile⟩
  let dev : SlcDevice := ⟨⟨id, fun _ => .refl _⟩, fun n => gridStrides n 1 Nat.one_pos,
    fun n => gridStrides n 1 Nat.one_pos, fun n => gridStrides n 1 Nat.one_pos,
    fun n => gridStrides n 1 Nat.one_pos, fun n => gridStrides n 1 Nat.one_pos,
    fun n => gridStrides n 1 Nat.one_pos⟩
  have hthrows := (hcomplete.refused dev).mpr (.inl hzero.le)
  rw [build_of_zero hzero] at hthrows
  cases hthrows

def exampleSlcInfo (linesPerBurst : Int) : SlcNoiseInfo ℚ :=
  ⟨linesPerBurst, [exampleAzimuthVector], [exampleRangeVector, exampleRangeVector], by simp⟩

def exampleTile : ImageTile := ⟨⟨1, 2, 3, 4⟩, by decide, by decide, by decide, by decide⟩

theorem lutComplete_iff_example : LutComplete (exampleSlcInfo 3) exampleTile :=
  (lutComplete_iff (exampleSlcInfo 3) exampleTile).mpr (by decide)

/-- The default of the metadata is a division by zero. -/
theorem not_lutComplete_zero : ¬ LutComplete (exampleSlcInfo 0) exampleTile := by
  intro hcomplete
  let dev : SlcDevice := ⟨exampleOrder, exampleShares, exampleShares, exampleShares, exampleShares,
    exampleShares, exampleShares⟩
  have hthrows := (hcomplete.refused dev).mpr (.inl (by decide))
  rw [build_of_zero rfl] at hthrows
  cases hthrows

end Matrix

end Alus.ThermalNoise
