import Mathlib.Algebra.Order.Floor.Ring
import Mathlib.Algebra.Order.Ring.Int
import Mathlib.Order.Bounds.Basic
import Mathlib.Tactic.Linarith
import Alus.Lib.IntRange
import Alus.Lib.Machine

/-!
# Sampling a raster

An image between its pixels is the bilinear interpolation of the four pixels around a point, and
beyond its edge it repeats the edge: an index is clamped to the rows and columns there are. A
part of the image, cut out and stored row by row, gives the same value wherever the clamping to
the part does what the clamping to the whole does.

The places of a raster are the points of a grid, from an origin in equal steps.
-/

namespace Alus.Lib

/-! ## Clamped indices -/

/-- The index in `lo .. hi` closest to `n`. -/
def clampTo (lo hi n : Int) : Int :=
  if n < lo then lo else if n > hi then hi else n

theorem clampTo_mem {lo hi : Int} (h : lo ≤ hi) (n : Int) :
    lo ≤ clampTo lo hi n ∧ clampTo lo hi n ≤ hi := by
  unfold clampTo
  split
  · omega
  · split <;> omega

theorem clampTo_of_mem {lo hi n : Int} (hlo : lo ≤ n) (hhi : n ≤ hi) : clampTo lo hi n = n := by
  unfold clampTo
  rw [if_neg (by omega), if_neg (by omega)]

theorem clampTo_mono {lo hi n n' : Int} (hle : lo ≤ hi) (h : n ≤ n') :
    clampTo lo hi n ≤ clampTo lo hi n' := by
  unfold clampTo
  split_ifs <;> omega

theorem clampTo_le {lo hi n k : Int} (hlo : lo ≤ k) (h : n ≤ k) : clampTo lo hi n ≤ k := by
  unfold clampTo
  split_ifs <;> omega

theorem le_clampTo {lo hi n k : Int} (hhi : k ≤ hi) (h : k ≤ n) : k ≤ clampTo lo hi n := by
  unfold clampTo
  split_ifs <;> omega

/-- Indices counted from elsewhere. -/
theorem clampTo_add (lo hi n s : Int) :
    clampTo (lo + s) (hi + s) (n + s) = clampTo lo hi n + s := by
  unfold clampTo
  split_ifs <;> omega

/-- Clamping to a window is clamping to the whole, when the window ends at the edge of the whole
wherever the index lies beyond it. -/
theorem clampTo_window {lo hi a b n : Int} (hlo : lo ≤ a) (hhi : b ≤ hi) (hab : a ≤ b)
    (hleft : a = lo ∨ a ≤ n) (hright : b = hi ∨ n ≤ b) : clampTo a b n = clampTo lo hi n := by
  unfold clampTo
  split_ifs <;> omega

/-! ## Bounds by minimum and maximum -/

section Extremes

variable {β : Type} [LinearOrder β] {l : List β} {a c : β}

/-- The minimum of values and a start value. -/
theorem le_foldl_min : c ≤ l.foldl min a ↔ c ≤ a ∧ ∀ n ∈ l, c ≤ n := by
  induction l generalizing a with
  | nil => simp
  | cons b l ih =>
    rw [List.foldl_cons, ih, le_min_iff, List.forall_mem_cons, and_assoc]

theorem lt_foldl_min : c < l.foldl min a ↔ c < a ∧ ∀ n ∈ l, c < n := by
  induction l generalizing a with
  | nil => simp
  | cons b l ih =>
    rw [List.foldl_cons, ih, lt_min_iff, List.forall_mem_cons, and_assoc]

/-- The maximum of values and a start value. -/
theorem foldl_max_le : l.foldl max a ≤ c ↔ a ≤ c ∧ ∀ n ∈ l, n ≤ c := by
  induction l generalizing a with
  | nil => simp
  | cons b l ih =>
    rw [List.foldl_cons, ih, max_le_iff, List.forall_mem_cons, and_assoc]

omit [LinearOrder β] in
/-- A loop that keeps its value or takes the next one ends with its start or with one of them. -/
theorem foldl_choice {op : β → β → β} (hop : ∀ b b', op b b' = b ∨ op b b' = b') :
    l.foldl op a = a ∨ l.foldl op a ∈ l := by
  induction l generalizing a with
  | nil => exact .inl rfl
  | cons b l ih =>
    rw [List.foldl_cons]
    cases ih (a := op a b) with
    | inr hmem => exact .inr (List.mem_cons_of_mem b hmem)
    | inl hstart =>
      rw [hstart]
      cases hop a b with
      | inl hkept => exact .inl hkept
      | inr htaken =>
        rw [htaken]
        exact .inr List.mem_cons_self

end Extremes

/-- The minimum from a start value is the least value, when none is beyond the start. -/
theorem isLeast_of_le_iff {s : Set Int} {m : Int} (start : Int) (hne : s.Nonempty)
    (hstart : ∀ z ∈ s, z ≤ start) (h : ∀ c, c ≤ m ↔ c ≤ start ∧ ∀ z ∈ s, c ≤ z) :
    IsLeast s m := by
  have hlower : m ∈ lowerBounds s := ((h m).mp le_rfl).2
  refine ⟨?_, hlower⟩
  by_contra hmem
  -- otherwise the next integer is a lower bound as well
  have hlt : ∀ z ∈ s, m + 1 ≤ z := fun z hz => lt_of_le_of_ne (hlower hz) fun heq => hmem (heq ▸ hz)
  obtain ⟨z, hz⟩ := hne
  have hnext : m + 1 ≤ m := (h (m + 1)).mpr ⟨(hlt z hz).trans (hstart z hz), hlt⟩
  omega

theorem isGreatest_of_le_iff {s : Set Int} {m : Int} (start : Int) (hne : s.Nonempty)
    (hstart : ∀ z ∈ s, start ≤ z) (h : ∀ c, m ≤ c ↔ start ≤ c ∧ ∀ z ∈ s, z ≤ c) :
    IsGreatest s m := by
  have hupper : m ∈ upperBounds s := ((h m).mp le_rfl).2
  refine ⟨?_, hupper⟩
  by_contra hmem
  have hlt : ∀ z ∈ s, z ≤ m - 1 := fun z hz =>
    Int.le_sub_one_of_lt (lt_of_le_of_ne (hupper hz) fun heq => hmem (heq ▸ hz))
  obtain ⟨z, hz⟩ := hne
  have hprevious : m ≤ m - 1 := (h (m - 1)).mpr ⟨(hstart z hz).trans (hlt z hz), hlt⟩
  omega

/-! ## Rasters over a grid -/

section Grid

variable {T : Type} [Field T] [LinearOrder T] [IsStrictOrderedRing T] {origin step : T}

theorem grid_le_iff (hstep : 0 < step) {y y' : Int} :
    origin + (y : T) * step ≤ origin + (y' : T) * step ↔ y ≤ y' := by
  rw [add_le_add_iff_left, mul_le_mul_iff_left₀ hstep, Int.cast_le]

theorem grid_inj (hstep : 0 < step) {y y' : Int}
    (h : origin + (y : T) * step = origin + (y' : T) * step) : y = y' :=
  le_antisymm ((grid_le_iff hstep).mp h.le) ((grid_le_iff hstep).mp h.ge)

omit [IsStrictOrderedRing T] in
/-- The number of steps from the origin of a grid. -/
theorem grid_steps (hstep : 0 < step) {t : T} {y : Int} (ht : t = origin + (y : T) * step) :
    (t - origin) / step = y := by
  rw [ht, add_sub_cancel_left, mul_div_cancel_right₀ _ (ne_of_gt hstep)]

/-- When the last of some points of a grid is `last` steps from the origin, the rasters that have a
place for each of the points are those larger than `last`. -/
theorem covers_iff (origin : T) (hstep : 0 < step) (points : T → Prop) {last : Int}
    (hlast : points (origin + (last : T) * step))
    (hpoints : ∀ t, points t → t ≤ origin + (last : T) * step ∧
      ∃ y : Int, 0 ≤ y ∧ t = origin + (y : T) * step) (size : Int) :
    (∀ t, points t → ∃ y : Int, 0 ≤ y ∧ y < size ∧ origin + (y : T) * step = t) ↔
      last < size := by
  constructor
  · intro hcovers
    obtain ⟨y, -, hy, hpoint⟩ := hcovers _ hlast
    exact grid_inj hstep hpoint ▸ hy
  · intro hsize t ht
    obtain ⟨hle, y, hy, hpoint⟩ := hpoints t ht
    subst hpoint
    exact ⟨y, hy, ((grid_le_iff hstep).mp hle).trans_lt hsize, rfl⟩

end Grid

/-! ## Rasters stored row by row -/

section RowMajor

variable {α : Type}

/-- The pixels of the image `g`, row by row. -/
def rowMajor (width height : Int) (g : Int → Int → α) : List α :=
  (intRange 0 height).flatMap fun y => (intRange 0 width).map fun x => g x y

theorem rowMajor_congr {width height : Int} {g g' : Int → Int → α}
    (h : ∀ x y, 0 ≤ x → x < width → 0 ≤ y → y < height → g x y = g' x y) :
    rowMajor width height g = rowMajor width height g' := by
  refine List.flatMap_congr fun y hy => List.map_congr_left fun x hx => ?_
  rw [mem_intRange] at hx hy
  exact h x y hx.1 hx.2 hy.1 hy.2

theorem length_rowMajor {width height : Int} (hw : 0 ≤ width) (hh : 0 ≤ height)
    (g : Int → Int → α) : ((rowMajor width height g).length : Int) = width * height := by
  have hlen : (rowMajor width height g).length = height.toNat * width.toNat := by
    simp [rowMajor, List.length_flatMap, length_intRange]
  rw [hlen]
  push_cast
  rw [Int.toNat_of_nonneg hw, Int.toNat_of_nonneg hh, Int.mul_comm]

/-- A list of blocks of one length, by block and offset. -/
theorem getElem?_flatMap_block {β : Type} {f : β → List α} {width : Nat} {l : List β}
    (hf : ∀ b ∈ l, (f b).length = width) {y x : Nat} (hx : x < width) :
    (l.flatMap f)[y * width + x]? = (l[y]?).bind fun b => (f b)[x]? := by
  induction l generalizing y with
  | nil => rfl
  | cons b l ih =>
    have hb : (f b).length = width := hf b List.mem_cons_self
    rw [List.flatMap_cons]
    cases y with
    | zero =>
      rw [List.getElem?_append_left (by omega), Nat.zero_mul, Nat.zero_add]
      rfl
    | succ y =>
      rw [List.getElem?_append_right (by rw [hb, Nat.succ_mul]; omega), hb,
        show (y + 1) * width + x - width = y * width + x by rw [Nat.succ_mul]; omega,
        ih fun b' hb' => hf b' (List.mem_cons_of_mem b hb')]
      rfl

/-- `values[width * y + x]` is the pixel in column `x` of row `y`. -/
theorem vectorIndex_rowMajor {width height x y : Int} (hx : 0 ≤ x) (hx' : x < width) (hy : 0 ≤ y)
    (hy' : y < height) (g : Int → Int → α) :
    vectorIndex (rowMajor width height g) (width * y + x) = .ok (g x y) := by
  have hpos : 0 ≤ width * y := Int.mul_nonneg (by omega) hy
  have hnat : (width * y + x).toNat = y.toNat * width.toNat + x.toNat := by
    apply Int.ofNat.inj
    show ((width * y + x).toNat : Int) = ((y.toNat * width.toNat + x.toNat : Nat) : Int)
    push_cast
    rw [Int.toNat_of_nonneg (by omega), Int.toNat_of_nonneg hy, Int.toNat_of_nonneg (by omega),
      Int.toNat_of_nonneg hx, Int.mul_comm]
  refine vectorIndex_eq_ok.mpr ⟨by omega, ?_⟩
  rw [hnat, rowMajor, getElem?_flatMap_block (fun b _ => by simp [length_intRange]) (by omega)]
  have hrow : (intRange 0 height)[y.toNat]? = some y := by
    rw [getElem?_intRange (by omega)]
    simp [hy]
  have hcol : (intRange 0 width)[x.toNat]? = some x := by
    rw [getElem?_intRange (by omega)]
    simp [hx]
  rw [hrow, Option.bind_some, List.getElem?_map, hcol]
  rfl

/-- Two images that are stored alike have the same pixels. -/
theorem rowMajor_inj {width height x y : Int} {g g' : Int → Int → α}
    (h : rowMajor width height g = rowMajor width height g') (hx : 0 ≤ x) (hx' : x < width)
    (hy : 0 ≤ y) (hy' : y < height) : g x y = g' x y := by
  have hg := vectorIndex_rowMajor hx hx' hy hy' g
  rw [h, vectorIndex_rowMajor hx hx' hy hy' g'] at hg
  exact (Outcome.ok.inj hg).symm

/-- A list of as many elements is the image that it stores. -/
theorem map_range_eq_rowMajor {width height : Int} (hw : 0 < width) (hh : 0 ≤ height)
    {f : Nat → α} {g : Int → Int → α}
    (h : ∀ x y, 0 ≤ x → x < width → 0 ≤ y → y < height → f (y * width + x).toNat = g x y) :
    (List.range (width * height).toNat).map f = rowMajor width height g := by
  have hsize : 0 ≤ width * height := Int.mul_nonneg (le_of_lt hw) hh
  have hlen := length_rowMajor (le_of_lt hw) hh g
  apply List.ext_getElem
  · rw [List.length_map, List.length_range]
    omega
  · intro k hk hk'
    rw [List.getElem_map, List.getElem_range]
    -- the column and the row of this element
    have hx := Int.emod_nonneg (k : Int) (ne_of_gt hw)
    have hx' := Int.emod_lt_of_pos (k : Int) hw
    have hy : 0 ≤ (k : Int) / width := Int.ediv_nonneg (Int.natCast_nonneg k) (le_of_lt hw)
    have hy' : (k : Int) / width < height := Int.ediv_lt_of_lt_mul hw (by
      rw [Int.mul_comm]
      omega)
    have hindex : width * ((k : Int) / width) + (k : Int) % width = k :=
      Int.mul_ediv_add_emod (k : Int) width
    have hread := vectorIndex_rowMajor hx hx' hy hy' g
    have hvalue := h _ _ hx hx' hy hy'
    rw [hindex, vectorIndex_natCast hk', Outcome.ok.injEq] at hread
    rw [Int.mul_comm, hindex, Int.toNat_natCast] at hvalue
    rw [hvalue, hread]

end RowMajor

/-! ## Bilinear interpolation -/

/-- Four neighbours: `v01` is next to `v00` in its row, `v10` in its column. -/
structure Corners (T : Type) where
  v00 : T
  v01 : T
  v10 : T
  v11 : T

namespace Corners

variable {α β : Type}

def map (f : α → β) (c : Corners α) : Corners β :=
  ⟨f c.v00, f c.v01, f c.v10, f c.v11⟩

/-- All four satisfy `p`. -/
def Forall (p : α → Prop) (c : Corners α) : Prop :=
  p c.v00 ∧ p c.v01 ∧ p c.v10 ∧ p c.v11

instance (p : α → Prop) [DecidablePred p] (c : Corners α) : Decidable (c.Forall p) :=
  inferInstanceAs (Decidable (_ ∧ _))

end Corners

section Bilinear

variable {T : Type} [Field T]

/-- The corners weighted by the fractions of the point in its cell. -/
def Corners.blend (c : Corners T) (ki kj : T) : T :=
  c.v00 * (1 - ki) * (1 - kj) + c.v01 * ki * (1 - kj) + c.v10 * (1 - ki) * kj + c.v11 * ki * kj

variable [LinearOrder T] [IsStrictOrderedRing T] [FloorRing T]

/-- The image at a point. -/
def bilinear (image : Int → Int → T) (x y : T) : T :=
  Corners.blend ⟨image ⌊x⌋ ⌊y⌋, image (⌊x⌋ + 1) ⌊y⌋, image ⌊x⌋ (⌊y⌋ + 1),
    image (⌊x⌋ + 1) (⌊y⌋ + 1)⟩ (Int.fract x) (Int.fract y)

/-- At a pixel, the image is its value. -/
theorem bilinear_intCast (image : Int → Int → T) (x y : Int) :
    bilinear image (x : T) (y : T) = image x y := by
  rw [bilinear, Int.floor_intCast, Int.floor_intCast, Int.fract_intCast, Int.fract_intCast,
    Corners.blend]
  simp only [sub_zero, mul_one, mul_zero, add_zero]

/-- The image whose edge is repeated beyond the columns `x0 .. x1` and the rows `y0 .. y1`. -/
def replicateEdge (x0 x1 y0 y1 : Int) (image : Int → Int → T) (x y : Int) : T :=
  image (clampTo x0 x1 x) (clampTo y0 y1 y)

omit [Field T] [LinearOrder T] [IsStrictOrderedRing T] [FloorRing T] in
theorem replicateEdge_of_mem {x0 x1 y0 y1 x y : Int} (hx : x0 ≤ x ∧ x ≤ x1)
    (hy : y0 ≤ y ∧ y ≤ y1) (image : Int → Int → T) :
    replicateEdge x0 x1 y0 y1 image x y = image x y := by
  rw [replicateEdge, clampTo_of_mem hx.1 hx.2, clampTo_of_mem hy.1 hy.2]

end Bilinear

end Alus.Lib
