import Alus.Lib.Tiling
import Alus.Util.ImageWorkers

/-!
# Windows of a raster

`RasterIO` moves a window of a raster band to a buffer or back, row by row.
-/

namespace Alus.Util

open Alus.Lib

variable {F D T : Type*}

/-- A raster band, by column and row. -/
abbrev RasterBand (F : Type*) := Int × Int → F

def pixelCount (window : Rectangle) : Nat := window.width.toNat * window.height.toNat

/-- The place of a pixel in the buffer of a window. -/
def pixelIndex (window : Rectangle) (k : Int × Int) : Nat :=
  (k.1 - window.x + (k.2 - window.y) * window.width).toNat

/-- `RasterIO` with `GF_Read`: the pixels of a window, row by row. -/
def rasterRead (band : RasterBand F) (window : Rectangle) : List F :=
  (List.range (pixelCount window)).map fun (i : Nat) =>
    band (window.x + i % window.width, window.y + i / window.width)

/-- What `RasterIO` is given with `GF_Write`: the window and the buffer. -/
abbrev TileData (F : Type*) := Rectangle × List (Option F)

/-- `RasterIO` with `GF_Write`. -/
def rasterWrite (image : RasterBand (Option F)) (data : TileData F) : RasterBand (Option F) :=
  fun k =>
    if data.1.Contains k.1 k.2 then data.2[pixelIndex data.1 k]?.join else image k

@[simp] theorem length_rasterRead (band : RasterBand F) (window : Rectangle) :
    (rasterRead band window).length = pixelCount window := by
  simp [rasterRead]

theorem rasterRead_map (band : RasterBand D) (window : Rectangle) (f : D → F) :
    (rasterRead band window).map f = rasterRead (fun k => f (band k)) window := by
  simp [rasterRead]

theorem zipWith_rasterRead (f : F → D → T) (band : RasterBand F) (band' : RasterBand D)
    (window : Rectangle) : List.zipWith f (rasterRead band window) (rasterRead band' window) =
      rasterRead (fun k => f (band k) (band' k)) window := by
  unfold rasterRead
  rw [List.zipWith_map, List.zipWith_self]

theorem zip_rasterRead (band : RasterBand F) (band' : RasterBand D) (window : Rectangle) :
    (rasterRead band window).zip (rasterRead band' window) =
      rasterRead (fun k => (band k, band' k)) window :=
  zipWith_rasterRead Prod.mk band band' window

section Window

variable {window : Rectangle} {k k' : Int × Int}

theorem pixelIndex_lt (h : window.Contains k.1 k.2) : pixelIndex window k < pixelCount window := by
  obtain ⟨hbounds, -⟩ := Rectangle.flatIndex h
  simp only [Rectangle.Contains] at h
  rw [pixelCount, ← Int.toNat_mul (by omega) (by omega), pixelIndex]
  omega

theorem pixelIndex_cast (h : window.Contains k.1 k.2) :
    (pixelIndex window k : Int) = k.1 - window.x + (k.2 - window.y) * window.width :=
  Int.toNat_of_nonneg (Rectangle.flatIndex h).1.1

/-- No two pixels of a window have one place in its buffer. -/
theorem pixelIndex_inj (h : window.Contains k.1 k.2) (h' : window.Contains k'.1 k'.2)
    (heq : pixelIndex window k = pixelIndex window k') : k = k' := by
  obtain ⟨-, hx, hy⟩ := Rectangle.flatIndex h
  obtain ⟨-, hx', hy'⟩ := Rectangle.flatIndex h'
  rw [← pixelIndex_cast h, heq] at hx hy
  rw [← pixelIndex_cast h'] at hx' hy'
  exact Prod.ext (hx.symm.trans hx') (hy.symm.trans hy')

theorem getElem?_rasterRead (band : RasterBand F) (h : window.Contains k.1 k.2) :
    (rasterRead band window)[pixelIndex window k]? = some (band k) := by
  obtain ⟨-, hx, hy⟩ := Rectangle.flatIndex h
  rw [rasterRead, List.getElem?_map, List.getElem?_range (pixelIndex_lt h), Option.map_some,
    pixelIndex_cast h, hx, hy]

/-- Every place of the buffer is that of a pixel of the window. -/
theorem exists_pixel {i : Nat} (hi : i < pixelCount window) :
    ∃ k : Int × Int, window.Contains k.1 k.2 ∧ pixelIndex window k = i := by
  have hwidth : 0 < window.width := by
    by_contra hneg
    rw [pixelCount, Int.toNat_of_nonpos (by omega), Nat.zero_mul] at hi
    omega
  have hheight : 0 < window.height := by
    by_contra hneg
    rw [pixelCount, Int.toNat_of_nonpos (z := window.height) (by omega), Nat.mul_zero] at hi
    omega
  rw [pixelCount, ← Int.toNat_mul hwidth.le hheight.le] at hi
  have hrow : (i : Int) / window.width < window.height :=
    Int.ediv_lt_of_lt_mul hwidth (by rw [Int.mul_comm]; omega)
  have hcolumn := Int.emod_lt_of_pos (i : Int) hwidth
  have hcolumn0 := Int.emod_nonneg (i : Int) hwidth.ne'
  have hrow0 : 0 ≤ (i : Int) / window.width := Int.ediv_nonneg (Int.natCast_nonneg i) hwidth.le
  refine ⟨(window.x + i % window.width, window.y + i / window.width), ?_, ?_⟩
  · simp only [Rectangle.Contains]
    omega
  · have hindex : window.x + i % window.width - window.x +
        (window.y + i / window.width - window.y) * window.width = i := by
      rw [add_sub_cancel_left, add_sub_cancel_left, Int.mul_comm, Int.emod_add_mul_ediv]
    rw [pixelIndex, hindex, Int.toNat_natCast]

/-- A buffer that has the values of the band at the pixels is what is read of the band. -/
theorem eq_rasterRead {data : List F} {band : RasterBand F}
    (hlength : data.length = pixelCount window)
    (hdata : ∀ k : Int × Int, window.Contains k.1 k.2 →
      data[pixelIndex window k]? = some (band k)) : data = rasterRead band window := by
  refine List.ext_getElem? fun i => ?_
  rcases Nat.lt_or_ge i (pixelCount window) with hlt | hge
  · obtain ⟨k, hk, rfl⟩ := exists_pixel hlt
    rw [hdata k hk, getElem?_rasterRead band hk]
  · rw [List.getElem?_eq_none (by omega), List.getElem?_eq_none (by simpa using hge)]

/-- A band of one value. -/
theorem replicate_eq_rasterRead {band : RasterBand F} {value : F}
    (h : ∀ k : Int × Int, window.Contains k.1 k.2 → band k = value) :
    List.replicate (pixelCount window) value = rasterRead band window := by
  refine eq_rasterRead (by simp) fun k hk => ?_
  rw [List.getElem?_replicate, if_pos (pixelIndex_lt hk), h k hk]

/-- The values at the pixels of a window. -/
theorem exists_values [Nonempty F] {band : RasterBand (Option F)}
    (h : ∀ k : Int × Int, window.Contains k.1 k.2 → ∃ value, band k = some value) :
    ∃ value : RasterBand F, ∀ k : Int × Int, window.Contains k.1 k.2 → band k = some (value k) := by
  have hall : ∀ k : Int × Int, ∃ value, window.Contains k.1 k.2 → band k = some value := by
    intro k
    by_cases hk : window.Contains k.1 k.2
    · obtain ⟨value, hvalue⟩ := h k hk
      exact ⟨value, fun _ => hvalue⟩
    · exact ⟨Classical.arbitrary F, fun hin => absurd hin hk⟩
  choose value hvalue using hall
  exact ⟨value, hvalue⟩

/-- A buffer of elements from which the values of the window can be read. -/
theorem map_rasterRead {band : RasterBand D} {value : RasterBand F} {f : D → F}
    (h : ∀ k : Int × Int, window.Contains k.1 k.2 → f (band k) = value k) :
    (rasterRead band window).map f = rasterRead value window := by
  refine eq_rasterRead (by simp) fun k hk => ?_
  rw [List.getElem?_map, getElem?_rasterRead _ hk, Option.map_some, h k hk]

end Window

/-- Two tiles of a disjoint list with a common pixel are one. -/
theorem eq_of_contains {tiles : List T} {contains : T → Int → Int → Prop}
    (hdisjoint : tiles.Pairwise fun t t' => ∀ x y, contains t x y → ¬ contains t' x y) {t t' : T}
    (ht : t ∈ tiles) (ht' : t' ∈ tiles) {x y : Int} (hin : contains t x y)
    (hin' : contains t' x y) : t = t' := by
  obtain ⟨i, hi, rfl⟩ := List.getElem_of_mem ht
  obtain ⟨j, hj, rfl⟩ := List.getElem_of_mem ht'
  have hapart := List.pairwise_iff_getElem.mp hdisjoint
  rcases Nat.lt_trichotomy i j with hlt | rfl | hgt
  · exact absurd hin' (hapart i j hi hj hlt x y hin)
  · rfl
  · exact absurd hin (hapart j i hj hi hgt x y hin')

/-- Tiles whose buffers have the expected values, and that agree where they meet. -/
theorem paintsTiles_rasterWrite {tiles : List T} (window : T → Rectangle)
    (data : T → List (Option F)) (expected : T → RasterBand (Option F))
    (hdata : ∀ t ∈ tiles, ∀ k : Int × Int, (window t).Contains k.1 k.2 →
      (data t)[pixelIndex (window t) k]?.join = expected t k)
    (hagree : ∀ t ∈ tiles, ∀ t' ∈ tiles, ∀ k : Int × Int, (window t).Contains k.1 k.2 →
      (window t').Contains k.1 k.2 → expected t k = expected t' k) :
    PaintsTiles rasterWrite tiles (fun t => (window t, data t))
      (fun t k => (window t).Contains k.1 k.2) expected where
  inside t ht k hin _ := (if_pos hin).trans (hdata t ht k hin)
  outside _ _ _ hout _ := if_neg hout
  agree := hagree

end Alus.Util
