import Mathlib.Data.List.ProdSigma
import Alus.Lib.IntRange

/-!
# Rasters computed tile by tile

An image is put together from rectangles that partition the raster, each computed on its own. It
does not depend on the partition exactly when every tile gives its pixels what a tile of that one
pixel would: a single tile can always be completed to a partition by tiles of one pixel.
-/

namespace Alus.Lib

structure Rectangle where
  x : Int
  y : Int
  width : Int
  height : Int
  deriving DecidableEq, Repr

namespace Rectangle

def Contains (t : Rectangle) (x y : Int) : Prop :=
  t.x ≤ x ∧ x < t.x + t.width ∧ t.y ≤ y ∧ y < t.y + t.height

instance (t : Rectangle) (x y : Int) : Decidable (t.Contains x y) :=
  inferInstanceAs (Decidable (_ ∧ _ ∧ _ ∧ _))

/-- The rectangle is not empty and lies in the raster. -/
def Inside (t : Rectangle) (width height : Int) : Prop :=
  0 < t.width ∧ 0 < t.height ∧ 0 ≤ t.x ∧ t.x + t.width ≤ width ∧ 0 ≤ t.y ∧
    t.y + t.height ≤ height

/-- The tile of one pixel. -/
def unit (x y : Int) : Rectangle := ⟨x, y, 1, 1⟩

theorem unit_contains {x y x' y' : Int} : (unit x y).Contains x' y' ↔ x' = x ∧ y' = y := by
  simp only [Contains, unit]
  omega

theorem unit_contains_self (x y : Int) : (unit x y).Contains x y :=
  unit_contains.mpr ⟨rfl, rfl⟩

theorem unit_inside {width height x y : Int} (hx : 0 ≤ x) (hx' : x < width) (hy : 0 ≤ y)
    (hy' : y < height) : (unit x y).Inside width height := by
  simp only [Inside, unit]
  omega

/-- The flat index of a pixel in the rows of the rectangle names the pixel it was made from. -/
theorem flatIndex {t : Rectangle} {x y : Int} (h : t.Contains x y) :
    (0 ≤ x - t.x + (y - t.y) * t.width ∧ x - t.x + (y - t.y) * t.width < t.width * t.height) ∧
      t.x + (x - t.x + (y - t.y) * t.width) % t.width = x ∧
      t.y + (x - t.x + (y - t.y) * t.width) / t.width = y := by
  obtain ⟨hx, hx', hy, hy'⟩ := h
  have hwidth : t.width ≠ 0 := by omega
  have hrow : 0 ≤ (y - t.y) * t.width := Int.mul_nonneg (by omega) (by omega)
  have hend : (y - t.y + 1) * t.width ≤ t.height * t.width :=
    Int.mul_le_mul_of_nonneg_right (by omega) (by omega)
  rw [Int.add_mul, Int.one_mul, Int.mul_comm t.height] at hend
  rw [Int.add_mul_emod_self_right, Int.emod_eq_of_lt (by omega) (by omega),
    Int.add_mul_ediv_right _ _ hwidth, Int.ediv_eq_zero_of_lt (by omega) (by omega)]
  omega

/-- Every pixel of the rectangle is one of the other. -/
def Within (t t' : Rectangle) : Prop := ∀ x y, t.Contains x y → t'.Contains x y

theorem within_iff {t t' : Rectangle} (hwidth : 0 < t.width) (hheight : 0 < t.height) :
    t.Within t' ↔ (t'.x ≤ t.x ∧ t.x + t.width ≤ t'.x + t'.width) ∧
      t'.y ≤ t.y ∧ t.y + t.height ≤ t'.y + t'.height := by
  simp only [Within, Contains]
  constructor
  · intro h
    have hfirst := h t.x t.y (by omega)
    have hlast := h (t.x + t.width - 1) (t.y + t.height - 1) (by omega)
    omega
  · intro h x y hxy
    omega

end Rectangle

/-- The pixels of a tile. -/
def tilePixels (t : Rectangle) : List (Int × Int) :=
  intRange t.x (t.x + t.width) ×ˢ intRange t.y (t.y + t.height)

theorem mem_tilePixels {t : Rectangle} {p : Int × Int} :
    p ∈ tilePixels t ↔ t.Contains p.1 p.2 := by
  obtain ⟨x, y⟩ := p
  simp only [tilePixels, List.mem_product, mem_intRange, Rectangle.Contains, and_assoc]

/-- The tiles lie in the raster, do not overlap, and leave no pixel out. -/
structure IsPartition (width height : Int) (tiles : List Rectangle) : Prop where
  inside : ∀ t ∈ tiles, t.Inside width height
  disjoint : tiles.Pairwise fun t t' => ∀ x y, t.Contains x y → ¬ t'.Contains x y
  covers : ∀ x y, 0 ≤ x → x < width → 0 ≤ y → y < height → ∃ t ∈ tiles, t.Contains x y

/-- The pixels of the raster, row by row in each column. -/
def pixels (width height : Int) : List (Int × Int) := intRange 0 width ×ˢ intRange 0 height

theorem mem_pixels {width height : Int} {p : Int × Int} :
    p ∈ pixels width height ↔ (0 ≤ p.1 ∧ p.1 < width) ∧ 0 ≤ p.2 ∧ p.2 < height := by
  obtain ⟨x, y⟩ := p
  simp [pixels, List.mem_product]

/-- A partition that has the given tile: everything else is in tiles of one pixel. -/
def completeTile (width height : Int) (t : Rectangle) : List Rectangle :=
  t :: ((pixels width height).filter fun p => ¬ t.Contains p.1 p.2).map fun p =>
    Rectangle.unit p.1 p.2

theorem isPartition_completeTile {width height : Int} {t : Rectangle} (ht : t.Inside width height) :
    IsPartition width height (completeTile width height t) := by
  refine ⟨fun t' ht' => ?_, List.pairwise_cons.mpr ⟨fun t' ht' x y hx hx' => ?_, ?_⟩,
    fun x y hx hx' hy hy' => ?_⟩
  · rcases List.mem_cons.mp ht' with rfl | hunit
    · exact ht
    · obtain ⟨p, hp, rfl⟩ := List.mem_map.mp hunit
      obtain ⟨⟨h1, h2⟩, h3, h4⟩ := mem_pixels.mp (List.mem_filter.mp hp).1
      exact Rectangle.unit_inside h1 h2 h3 h4
  · obtain ⟨p, hp, rfl⟩ := List.mem_map.mp ht'
    obtain ⟨rfl, rfl⟩ := Rectangle.unit_contains.mp hx'
    exact of_decide_eq_true (List.mem_filter.mp hp).2 hx
  -- two pixels share no point, and no pixel is listed twice
  · rw [List.pairwise_map]
    have hnodup : (pixels width height).Nodup :=
      (nodup_intRange 0 width).product (nodup_intRange 0 height)
    refine (hnodup.filter _).imp fun {p q} hne x y hp hq => hne ?_
    obtain ⟨h1, h2⟩ := Rectangle.unit_contains.mp hp
    obtain ⟨h3, h4⟩ := Rectangle.unit_contains.mp hq
    exact Prod.ext (h1.symm.trans h3) (h2.symm.trans h4)
  · by_cases hin : t.Contains x y
    · exact ⟨t, List.mem_cons_self, hin⟩
    · have hmem : (x, y) ∈ (pixels width height).filter fun p => ¬ t.Contains p.1 p.2 :=
        List.mem_filter.mpr ⟨mem_pixels.mpr ⟨⟨hx, hx'⟩, hy, hy'⟩, decide_eq_true hin⟩
      exact ⟨_, List.mem_cons_of_mem _ (List.mem_map_of_mem hmem),
        Rectangle.unit_contains_self x y⟩

section Image

variable {α : Type*} (f : Rectangle → Int → Int → α)

/-- The image after the tiles are computed one after the other. -/
def image (start : Int → Int → α) (tiles : List Rectangle) : Int → Int → α :=
  tiles.foldl (fun img t x y => if t.Contains x y then f t x y else img x y) start

/-- A pixel in none of the tiles keeps its value. -/
theorem image_of_not_contains {start : Int → Int → α} {tiles : List Rectangle} {x y : Int}
    (h : ∀ t ∈ tiles, ¬ t.Contains x y) : image f start tiles x y = start x y := by
  induction tiles generalizing start with
  | nil => rfl
  | cons t tiles ih =>
    rw [image, List.foldl_cons]
    refine (ih fun t' ht' => h t' (List.mem_cons_of_mem t ht')).trans ?_
    exact if_neg (h t List.mem_cons_self)

/-- A pixel of a partition has the value its tile computes: no later tile writes it again. -/
theorem image_of_contains {start : Int → Int → α} {tiles : List Rectangle} {x y : Int}
    (hdisjoint : tiles.Pairwise fun t t' => ∀ x y, t.Contains x y → ¬ t'.Contains x y)
    {t : Rectangle} (ht : t ∈ tiles) (hpix : t.Contains x y) :
    image f start tiles x y = f t x y := by
  induction tiles generalizing start with
  | nil => cases ht
  | cons t' tiles ih =>
    obtain ⟨hfirst, hrest⟩ := List.pairwise_cons.mp hdisjoint
    rw [image, List.foldl_cons]
    rcases List.mem_cons.mp ht with rfl | htail
    · refine (image_of_not_contains f fun t' ht' => hfirst t' ht' x y hpix).trans ?_
      exact if_pos hpix
    · exact ih hrest htail

/-- The image is the same for every two partitions of the raster. -/
def TileIndependent (start : Int → Int → α) (width height : Int) : Prop :=
  ∀ tiles tiles', IsPartition width height tiles → IsPartition width height tiles' →
    ∀ x y, image f start tiles x y = image f start tiles' x y

/-- **Tile independence, tile by tile.** -/
theorem tileIndependent_iff {start : Int → Int → α} {width height : Int} :
    TileIndependent f start width height ↔ ∀ t : Rectangle, t.Inside width height →
      ∀ x y, t.Contains x y → f t x y = f (Rectangle.unit x y) x y := by
  constructor
  · intro h t ht x y hpix
    have hunit : (Rectangle.unit x y).Inside width height := by
      simp only [Rectangle.Inside, Rectangle.Contains, Rectangle.unit] at ht hpix ⊢
      omega
    have hsame := Rectangle.unit_contains_self x y
    have htile := isPartition_completeTile ht
    have hpixel := isPartition_completeTile hunit
    calc f t x y = image f start (completeTile width height t) x y :=
          (image_of_contains f htile.disjoint List.mem_cons_self hpix).symm
      _ = image f start (completeTile width height (Rectangle.unit x y)) x y :=
          h _ _ htile hpixel x y
      _ = f (Rectangle.unit x y) x y :=
          image_of_contains f hpixel.disjoint List.mem_cons_self hsame
  · intro h tiles tiles' hp hp' x y
    by_cases hin : ∃ t ∈ tiles, t.Contains x y
    · obtain ⟨t, ht, hpix⟩ := hin
      have hraster := hp.inside t ht
      simp only [Rectangle.Inside, Rectangle.Contains] at hraster hpix
      obtain ⟨t', ht', hpix'⟩ := hp'.covers x y (by omega) (by omega) (by omega) (by omega)
      rw [image_of_contains f hp.disjoint ht hpix, image_of_contains f hp'.disjoint ht' hpix',
        h t (hp.inside t ht) x y hpix, h t' (hp'.inside t' ht') x y hpix']
    -- outside the raster neither image is written
    · have hout : ∀ t' ∈ tiles', ¬ t'.Contains x y := fun t' ht' hpix' => by
        have hraster := hp'.inside t' ht'
        simp only [Rectangle.Inside, Rectangle.Contains] at hraster hpix'
        exact hin (hp.covers x y (by omega) (by omega) (by omega) (by omega))
      rw [image_of_not_contains f fun t ht hpix => hin ⟨t, ht, hpix⟩,
        image_of_not_contains f hout]

/-- An image that does not depend on the partition has, at each pixel of the raster, the value of
the tile of that pixel. -/
theorem TileIndependent.image_eq {start : Int → Int → α} {width height : Int}
    (h : TileIndependent f start width height) {tiles : List Rectangle}
    (hp : IsPartition width height tiles) {x y : Int} (hx : 0 ≤ x) (hx' : x < width) (hy : 0 ≤ y)
    (hy' : y < height) : image f start tiles x y = f (Rectangle.unit x y) x y := by
  obtain ⟨t, ht, hpix⟩ := hp.covers x y hx hx' hy hy'
  rw [image_of_contains f hp.disjoint ht hpix]
  exact (tileIndependent_iff f).mp h t (hp.inside t ht) x y hpix

end Image

end Alus.Lib
