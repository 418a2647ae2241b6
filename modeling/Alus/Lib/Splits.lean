import Mathlib.Tactic.Ring
import Alus.Lib.Tiling

/-!
# Areas split by rows and columns

A loop that cuts a range into pieces lists intervals that follow each other. The rectangles over
the pieces of two ranges partition the area of these ranges, whichever of the two loops is the
outer one.
-/

namespace Alus.Lib

/-! ## One range -/

/-- The intervals, by start and size, follow each other from `a` to `b`, and none is empty. -/
inductive Splits : Int → Int → List (Int × Int) → Prop where
  | nil (a : Int) : Splits a a []
  | cons {a b size : Int} {rest : List (Int × Int)} (hsize : 0 < size)
      (hrest : Splits (a + size) b rest) : Splits a b ((a, size) :: rest)

namespace Splits

variable {a b m : Int} {pieces : List (Int × Int)}

theorem append {rest : List (Int × Int)} (h : Splits a m pieces) (hrest : Splits m b rest) :
    Splits a b (pieces ++ rest) := by
  induction h with
  | nil => exact hrest
  | cons hsize _ ih => exact .cons hsize (ih hrest)

theorem single {size : Int} (hsize : 0 < size) : Splits a (a + size) [(a, size)] :=
  .cons hsize (.nil (a + size))

theorem le (h : Splits a b pieces) : a ≤ b := by
  induction h with
  | nil => exact le_refl _
  | cons hsize _ ih => omega

theorem mem_bounds (h : Splits a b pieces) {piece : Int × Int} (hpiece : piece ∈ pieces) :
    0 < piece.2 ∧ a ≤ piece.1 ∧ piece.1 + piece.2 ≤ b := by
  induction h with
  | nil => cases hpiece
  | cons hsize hrest ih =>
    rcases List.mem_cons.mp hpiece with rfl | hpiece
    · exact ⟨hsize, le_refl _, hrest.le⟩
    · have hbounds := ih hpiece
      omega

theorem exists_piece (h : Splits a b pieces) {z : Int} (ha : a ≤ z) (hb : z < b) :
    ∃ piece ∈ pieces, piece.1 ≤ z ∧ z < piece.1 + piece.2 := by
  induction h with
  | nil => omega
  | @cons a b size rest hsize _ ih =>
    by_cases hfirst : z < a + size
    · exact ⟨(a, size), List.mem_cons_self, ha, hfirst⟩
    · obtain ⟨piece, hpiece, hz⟩ := ih (by omega) hb
      exact ⟨piece, List.mem_cons_of_mem _ hpiece, hz⟩

/-- Each piece begins where the ones before it have ended. -/
theorem pairwise (h : Splits a b pieces) :
    pieces.Pairwise fun piece piece' => piece.1 + piece.2 ≤ piece'.1 := by
  induction h with
  | nil => exact .nil
  | cons _ hrest ih => exact .cons (fun piece hpiece => (hrest.mem_bounds hpiece).2.1) ih

/-- Pieces of one size, with a rest that is not larger. -/
theorem of_count {size last : Int} (hsize : 0 < size) (hlast : 0 < last) (start : Int)
    (count : Nat) : Splits start (start + size * count + last)
      ((List.range count).map (fun (k : Nat) => (start + size * (k : Int), size)) ++
        [(start + size * count, last)]) := by
  refine append (m := start + size * count) ?_ (single hlast)
  induction count with
  | zero =>
    rw [Nat.cast_zero, mul_zero, add_zero]
    exact .nil start
  | succ count ih =>
    rw [List.range_succ, List.map_append, List.map_singleton,
      show start + size * ((count + 1 : Nat) : Int) = start + size * count + size by
        push_cast
        ring]
    exact ih.append (single hsize)

end Splits

/-- A range cut into pieces of one size; the last one takes what is left of it. -/
def pieces (limit size count : Int) : List (Int × Int) :=
  (intRange 0 count).map fun index =>
    (size * index, if index = count - 1 then limit - size * index else size)

theorem splits_pieces {limit size count : Int} (hsize : 0 < size) (hcount : 1 ≤ count)
    (hlast : size * (count - 1) < limit) : Splits 0 limit (pieces limit size count) := by
  obtain ⟨n, hn⟩ := Int.eq_ofNat_of_zero_le (show 0 ≤ count - 1 by omega)
  obtain rfl : count = n + 1 := by omega
  rw [show (n : Int) + 1 - 1 = n by omega] at hlast
  have hsplits := Splits.of_count hsize (show 0 < limit - size * n by omega) 0 n
  rw [Int.zero_add, show size * n + (limit - size * n) = limit by omega] at hsplits
  convert hsplits using 1
  rw [pieces, intRange_append (show 0 ≤ (n : Int) by omega) (by omega), List.map_append]
  congr 1
  · rw [intRange, List.map_map, show ((n : Int) - 0).toNat = n by omega]
    refine List.map_congr_left fun i hi => ?_
    have hlt := List.mem_range.mp hi
    simp only [Function.comp_apply, Int.zero_add]
    rw [if_neg (by omega)]
  · rw [intRange_cons (by omega), intRange_eq_nil (by omega), List.map_singleton, if_pos (by omega)]

/-! ## Rectangles -/

/-- The tiles lie in the area, do not overlap, and leave no pixel of it out. -/
structure PartitionsArea (area : Rectangle) (tiles : List Rectangle) : Prop where
  inside : ∀ t ∈ tiles, (0 < t.width ∧ 0 < t.height) ∧
    (area.x ≤ t.x ∧ t.x + t.width ≤ area.x + area.width) ∧
    (area.y ≤ t.y ∧ t.y + t.height ≤ area.y + area.height)
  disjoint : tiles.Pairwise fun t t' => ∀ x y, t.Contains x y → ¬ t'.Contains x y
  covers : ∀ x y, area.Contains x y → ∃ t ∈ tiles, t.Contains x y

theorem PartitionsArea.isPartition {width height : Int} {tiles : List Rectangle}
    (h : PartitionsArea ⟨0, 0, width, height⟩ tiles) : IsPartition width height tiles := by
  refine ⟨fun t ht => ?_, h.disjoint, fun x y hx hx' hy hy' => h.covers x y ?_⟩
  · have hinside := h.inside t ht
    simp only [Rectangle.Inside] at hinside ⊢
    omega
  · simp only [Rectangle.Contains]
    omega

/-- The rectangles over the pieces, row by row. -/
def gridRectangles (columns rows : List (Int × Int)) : List Rectangle :=
  rows.flatMap fun row => columns.map fun column => ⟨column.1, row.1, column.2, row.2⟩

theorem mem_gridRectangles {columns rows : List (Int × Int)} {t : Rectangle} :
    t ∈ gridRectangles columns rows ↔ (t.x, t.width) ∈ columns ∧ (t.y, t.height) ∈ rows := by
  simp only [gridRectangles, List.mem_flatMap, List.mem_map]
  constructor
  · rintro ⟨row, hrow, column, hcolumn, rfl⟩
    exact ⟨hcolumn, hrow⟩
  · rintro ⟨hcolumn, hrow⟩
    exact ⟨_, hrow, _, hcolumn, rfl⟩

/-- The pieces of two ranges partition their area. -/
theorem partitionsArea_gridRectangles {x x' y y' : Int} {columns rows : List (Int × Int)}
    (hcolumns : Splits x x' columns) (hrows : Splits y y' rows) :
    PartitionsArea ⟨x, y, x' - x, y' - y⟩ (gridRectangles columns rows) := by
  refine ⟨fun t ht => ?_, ?_, fun px py hin => ?_⟩
  · obtain ⟨hcolumn, hrow⟩ := mem_gridRectangles.mp ht
    have hwidth := hcolumns.mem_bounds hcolumn
    have hheight := hrows.mem_bounds hrow
    simp only at hwidth hheight ⊢
    omega
  · rw [gridRectangles, List.pairwise_flatMap]
    constructor
    · intro row _
      rw [List.pairwise_map]
      refine hcolumns.pairwise.imp fun {column column'} hbefore px py hin hin' => ?_
      simp only [Rectangle.Contains] at hin hin'
      omega
    -- two rows have no line in common
    · refine hrows.pairwise.imp fun {row row'} hbefore t ht t' ht' px py hin hin' => ?_
      obtain ⟨column, _, rfl⟩ := List.mem_map.mp ht
      obtain ⟨column', _, rfl⟩ := List.mem_map.mp ht'
      simp only [Rectangle.Contains] at hin hin'
      omega
  · simp only [Rectangle.Contains] at hin
    obtain ⟨column, hcolumn, hx⟩ := hcolumns.exists_piece (z := px) (by omega) (by omega)
    obtain ⟨row, hrow, hy⟩ := hrows.exists_piece (z := py) (by omega) (by omega)
    exact ⟨⟨column.1, row.1, column.2, row.2⟩, mem_gridRectangles.mpr ⟨hcolumn, hrow⟩,
      hx.1, hx.2, hy.1, hy.2⟩

/-! ## Rows and columns exchanged -/

/-- The rectangle with its columns for rows. -/
def Rectangle.transpose (t : Rectangle) : Rectangle := ⟨t.y, t.x, t.height, t.width⟩

theorem Rectangle.transpose_contains {t : Rectangle} {x y : Int} :
    t.transpose.Contains x y ↔ t.Contains y x := by
  simp only [Rectangle.transpose, Rectangle.Contains]
  omega

theorem IsPartition.transpose {width height : Int} {tiles : List Rectangle}
    (h : IsPartition width height tiles) :
    IsPartition height width (tiles.map Rectangle.transpose) := by
  refine ⟨fun t ht => ?_, ?_, fun x y hx hx' hy hy' => ?_⟩
  · obtain ⟨t', ht', rfl⟩ := List.mem_map.mp ht
    have hinside := h.inside t' ht'
    simp only [Rectangle.Inside, Rectangle.transpose] at hinside ⊢
    omega
  · rw [List.pairwise_map]
    refine h.disjoint.imp fun hne x y hin hin' => ?_
    exact hne y x (Rectangle.transpose_contains.mp hin) (Rectangle.transpose_contains.mp hin')
  · obtain ⟨t, ht, hin⟩ := h.covers y x hy hy' hx hx'
    exact ⟨t.transpose, List.mem_map_of_mem ht, Rectangle.transpose_contains.mpr hin⟩

end Alus.Lib
