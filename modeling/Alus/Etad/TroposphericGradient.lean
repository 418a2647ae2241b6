import Alus.Etad.GridSampling
import Alus.Lib.IntRange
import Alus.Lib.LeastSquares
import Alus.Lib.Sampling

/-!
# The gradient of the troposphere over the height

`TroposphericGradientAt` sums up the differences between neighbours in the rows of a window and
solves the normal equations of the line through them, with the larger pivot first. Where it has a
value, that is the slope of the least squares line; it has none where all height differences agree.

Delays and heights are exact numbers; NaN is `none`.
-/

namespace Alus.Etad

open Alus.Lib

variable {T : Type} [Field T]

/-! ## The sums -/

/-- The difference of two values, and their sum and product: NaN if one is. -/
def minus (a b : Option T) : Option T := do return (← a) - (← b)

def plus (a b : Option T) : Option T := do return (← a) + (← b)

def times (a b : Option T) : Option T := do return (← a) * (← b)

structure WindowSums (T : Type) where
  sumX : Option T
  sumX2 : Option T
  sumY : Option T
  sumXY : Option T

/-- The lines that add a pair of differences. -/
def WindowSums.add (sums : WindowSums T) (dh dt : Option T) : WindowSums T where
  sumX := plus sums.sumX dh
  sumX2 := plus sums.sumX2 (times dh dh)
  sumY := plus sums.sumY dt
  sumXY := plus sums.sumXY (times dh dt)

variable [LinearOrder T]

/-- The normal equations, solved with partial pivoting. -/
def WindowSums.solve (sums : WindowSums T) (count : T) : Option T := do
  let swapRows :=
    match sums.sumX, sums.sumX2 with
    | some sumX, some sumX2 => decide (|sumX| > |sumX2|)
    | _, _ => false
  let a ← if swapRows then sums.sumX else sums.sumX2
  let b ← if swapRows then some count else sums.sumX
  let c ← if swapRows then sums.sumX2 else sums.sumX
  let d ← if swapRows then sums.sumX else some count
  let u ← if swapRows then sums.sumY else sums.sumXY
  let v ← if swapRows then sums.sumXY else sums.sumY
  if a = 0 then none
  else
    let factor := c / a
    let pivot := d - factor * b
    if pivot = 0 then none
    else
      let intercept := (v - factor * u) / pivot
      some ((u - b * intercept) / a)

/-- `HALF_WINDOW`. -/
def halfWindow : Int := 12

/-- `x_start` and `y_start`. -/
def windowStart (position : Int) : Int :=
  if position > halfWindow then position - halfWindow else 0

/-- `x_end` and `y_end`. -/
def windowEnd (size position : Int) : Int :=
  if size - 1 - position > halfWindow then position + halfWindow else size - 1

/-- The body of the inner loop. -/
def windowRound (troposphere height : GridView T) (r : Int) (sums : WindowSums T) (c : Int) :
    Outcome (WindowSums T) := do
  let i := r * height.columns + c
  let h1 ← vectorIndex height.values (i + 1)
  let h0 ← vectorIndex height.values i
  let t1 ← vectorIndex troposphere.values (i + 1)
  let t0 ← vectorIndex troposphere.values i
  return sums.add (minus h1 h0) (minus t1 t0)

/-- `TroposphericGradientAt`. -/
def troposphericGradientAt (troposphere height : GridView T) (y x : Nat) :
    Outcome (Option T) :=
  if y ≥ height.rows ∨ x ≥ height.columns ∨ height.rows < 2 ∨ height.columns < 2 then return none
  else if x = height.columns - 1 then return some 0
  else do
    let xStart := windowStart x
    let xEnd := windowEnd height.columns x
    let yStart := windowStart y
    let yEnd := windowEnd height.rows y
    let sums ← (intRange yStart (yEnd + 1)).foldlM (fun sums r =>
      (intRange xStart xEnd).foldlM (windowRound troposphere height r) sums)
        ⟨some 0, some 0, some 0, some 0⟩
    return sums.solve (((yEnd - yStart + 1) * (xEnd - xStart) : Int) : T)

/-- `ComputeTroposphericGradient`. -/
def computeTroposphericGradient (troposphere height : GridView T) : Outcome (GridView T) := do
  checkSameGrid troposphere height
  let values ← Outcome.collect ((intRange 0 height.rows).flatMap fun y =>
    (intRange 0 height.columns).map fun x =>
      troposphericGradientAt troposphere height y.toNat x.toNat)
  return ⟨values, height.rows, height.columns⟩

/-! ## The solution -/

/-- Whichever row comes first, there is a solution unless the determinant vanishes. -/
theorem solve_eq [IsStrictOrderedRing T] (n sx sxx sy sxy : T) :
    (⟨some sx, some sxx, some sy, some sxy⟩ : WindowSums T).solve n =
      if n * sxx - sx ^ 2 = 0 then none
      else some ((n * sxy - sx * sy) / (n * sxx - sx ^ 2)) := by
  by_cases hswap : |sx| > |sxx|
  -- the row of the intercept is the first one
  · have hsx : sx ≠ 0 := abs_pos.mp (lt_of_le_of_lt (abs_nonneg sxx) hswap)
    have hpivot : sx - sxx / sx * n = -(n * sxx - sx ^ 2) / sx := by
      field_simp
      ring
    simp only [WindowSums.solve, decide_eq_true hswap, if_true, Option.bind_eq_bind,
      Option.bind_some, if_neg hsx, hpivot]
    by_cases hdet : n * sxx - sx ^ 2 = 0
    · rw [if_pos hdet, hdet, neg_zero, zero_div, if_pos rfl]
    · have hne : -(n * sxx - sx ^ 2) / sx ≠ 0 := div_ne_zero (neg_ne_zero.mpr hdet) hsx
      rw [if_neg hdet, if_neg hne, Option.some.injEq]
      field_simp
      ring
  · have hswap' : |sx| ≤ |sxx| := not_lt.mp hswap
    simp only [WindowSums.solve, decide_eq_false hswap, Bool.false_eq_true, if_false,
      Option.bind_eq_bind, Option.bind_some]
    by_cases hsxx : sxx = 0
    · have hsx : sx = 0 := by
        rw [hsxx, abs_zero] at hswap'
        exact abs_nonpos_iff.mp hswap'
      rw [if_pos hsxx, if_pos (by rw [hsxx, hsx]; ring)]
    · have hpivot : n - sx / sxx * sx = (n * sxx - sx ^ 2) / sxx := by
        field_simp
      rw [if_neg hsxx, hpivot]
      by_cases hdet : n * sxx - sx ^ 2 = 0
      · rw [if_pos hdet, hdet, zero_div, if_pos rfl]
      · have hne : (n * sxx - sx ^ 2) / sxx ≠ 0 := div_ne_zero hdet hsxx
        rw [if_neg hdet, if_neg hne, Option.some.injEq]
        set det := n * sxx - sx ^ 2 with hdetEq
        field_simp
        linear_combination sxy * hdetEq

/-! ## The window -/

section Window

omit [LinearOrder T]

/-- The number at a row and a column. -/
def GridView.number (grid : GridView T) (row column : Int) : T := (grid.node row column).getD 0

/-- The difference between the right neighbour of a cell and the cell. -/
def GridView.rowDifference (grid : GridView T) (p : Int × Int) : T :=
  grid.number p.1 (p.2 + 1) - grid.number p.1 p.2

/-- The cells of the grid at most half a window away from a cell. -/
def GridView.windowCells (grid : GridView T) (y x : Int) : Finset (Int × Int) :=
  ((intRange 0 grid.rows).toFinset ×ˢ (intRange 0 grid.columns).toFinset).filter fun p =>
    (p.1 - y).natAbs ≤ halfWindow ∧ (p.2 - x).natAbs ≤ halfWindow

/-- The cells of the window whose right neighbours are in it. -/
def GridView.windowPairs (grid : GridView T) (y x : Int) : Finset (Int × Int) :=
  (grid.windowCells y x).filter fun p => (p.1, p.2 + 1) ∈ grid.windowCells y x

/-- The cells that the loops visit. -/
def windowList (rows columns y x : Int) : List (Int × Int) :=
  (intRange (windowStart y) (windowEnd rows y + 1)).flatMap fun r =>
    (intRange (windowStart x) (windowEnd columns x)).map fun c => (r, c)

theorem windowStart_le_iff {position z : Int} :
    windowStart position ≤ z ↔ 0 ≤ z ∧ position - 12 ≤ z := by
  rw [windowStart, halfWindow]
  split <;> omega

theorem lt_windowEnd_iff {size position z : Int} :
    z < windowEnd size position ↔ z < size - 1 ∧ z < position + 12 := by
  rw [windowEnd, halfWindow]
  split <;> omega

theorem le_windowEnd_iff {size position z : Int} :
    z ≤ windowEnd size position ↔ z ≤ size - 1 ∧ z ≤ position + 12 := by
  rw [windowEnd, halfWindow]
  split <;> omega

omit [Field T] in
theorem mem_windowPairs {grid : GridView T} {y x : Int} {p : Int × Int} :
    p ∈ grid.windowPairs y x ↔ p ∈ windowList grid.rows grid.columns y x := by
  obtain ⟨r, c⟩ := p
  simp only [GridView.windowPairs, GridView.windowCells, windowList, Finset.mem_filter,
    Finset.mem_product, List.mem_toFinset, List.mem_flatMap, List.mem_map, mem_intRange,
    Prod.mk.injEq, windowStart_le_iff, Int.lt_add_one_iff]
  rw [halfWindow]
  constructor
  · intro h
    exact ⟨r, ⟨by omega, le_windowEnd_iff.mpr (by omega)⟩, c,
      ⟨by omega, lt_windowEnd_iff.mpr (by omega)⟩, rfl, rfl⟩
  · rintro ⟨r', ⟨hr, hr'⟩, c', ⟨hc, hc'⟩, rfl, rfl⟩
    have hrow := le_windowEnd_iff.mp hr'
    have hcolumn := lt_windowEnd_iff.mp hc'
    omega

theorem nodup_windowList (rows columns y x : Int) : (windowList rows columns y x).Nodup :=
  (nodup_intRange _ _).product (nodup_intRange _ _)

variable (troposphere height : GridView T)

/-- The sums over the cells of a list. -/
def sumsOver (cells : List (Int × Int)) : WindowSums T where
  sumX := some (cells.map height.rowDifference).sum
  sumX2 := some (cells.map fun p => height.rowDifference p ^ 2).sum
  sumY := some (cells.map troposphere.rowDifference).sum
  sumXY := some (cells.map fun p => height.rowDifference p * troposphere.rowDifference p).sum

theorem sumsOver_append (cells : List (Int × Int)) (p : Int × Int) :
    sumsOver troposphere height (cells ++ [p]) =
      (sumsOver troposphere height cells).add (some (height.rowDifference p))
        (some (troposphere.rowDifference p)) := by
  simp only [sumsOver, WindowSums.add, plus, times, List.map_append, List.map_singleton,
    List.sum_append, List.sum_singleton, Option.pure_def, Option.bind_eq_bind, Option.bind_some,
    pow_two]

/-- The two layers have one size and only finite values. -/
structure FiniteLayers : Prop where
  troposphere_sized : troposphere.Sized
  height_sized : height.Sized
  rows : troposphere.rows = height.rows
  columns : troposphere.columns = height.columns
  troposphere_finite : ∀ value ∈ troposphere.values, value ≠ none
  height_finite : ∀ value ∈ height.values, value ≠ none

theorem vectorIndex_number {grid : GridView T} (hsized : grid.Sized)
    (hfinite : ∀ value ∈ grid.values, value ≠ none) {r c : Int} (hr : 0 ≤ r) (hr' : r < grid.rows)
    (hc : 0 ≤ c) (hc' : c < grid.columns) :
    vectorIndex grid.values (r * grid.columns + c) = .ok (some (grid.number r c)) := by
  have hread := hsized.vectorIndex_eq r c hr hr' hc hc'
  have hvalid := hfinite _ (List.mem_of_getElem? (vectorIndex_eq_ok.mp hread).2)
  rw [hread, GridView.number]
  obtain ⟨value, hvalue⟩ := Option.ne_none_iff_exists'.mp hvalid
  rw [hvalue, Option.getD_some]

variable {troposphere height} (h : FiniteLayers troposphere height)
include h

/-- The step of the loops over the window. -/
theorem windowRound_eq {r c : Int} (hr : 0 ≤ r) (hr' : r < height.rows) (hc : 0 ≤ c)
    (hc' : c + 1 < height.columns) (cells : List (Int × Int)) :
    windowRound troposphere height r (sumsOver troposphere height cells) c =
      .ok (sumsOver troposphere height (cells ++ [(r, c)])) := by
  have hrows := h.rows
  have hcolumns := h.columns
  have hh0 := vectorIndex_number h.height_sized h.height_finite hr hr' hc (by omega)
  have hh1 := vectorIndex_number h.height_sized h.height_finite hr hr'
    (show 0 ≤ c + 1 by omega) (by omega)
  have ht0 := vectorIndex_number h.troposphere_sized h.troposphere_finite hr
    (show r < troposphere.rows by omega) hc (by omega)
  have ht1 := vectorIndex_number h.troposphere_sized h.troposphere_finite hr
    (show r < troposphere.rows by omega) (show 0 ≤ c + 1 by omega) (by omega)
  rw [hcolumns] at ht0 ht1
  simp only [windowRound]
  rw [Int.add_assoc, hh1, Outcome.ok_bind, hh0, Outcome.ok_bind, ht1, Outcome.ok_bind, ht0,
    Outcome.ok_bind, sumsOver_append]
  rfl

/-- The loops sum up the differences of the cells they visit. -/
theorem windowLoops_eq (y x : Int) :
    (intRange (windowStart y) (windowEnd height.rows y + 1)).foldlM (fun sums r =>
      (intRange (windowStart x) (windowEnd height.columns x)).foldlM
        (windowRound troposphere height r) sums) ⟨some 0, some 0, some 0, some 0⟩ =
      .ok (sumsOver troposphere height (windowList height.rows height.columns y x)) := by
  refine Outcome.foldlM_listed (S := sumsOver troposphere height) (fun r hr done => ?_) []
  refine (Outcome.foldlM_listed (g := fun c => [(r, c)]) (fun c hc done => ?_) done).trans ?_
  · obtain ⟨hr, hr'⟩ := mem_intRange.mp hr
    obtain ⟨hc, hc'⟩ := mem_intRange.mp hc
    have hrow := le_windowEnd_iff.mp (Int.lt_add_one_iff.mp hr')
    have hcolumn := lt_windowEnd_iff.mp hc'
    exact windowRound_eq h (windowStart_le_iff.mp hr).1 (by omega) (windowStart_le_iff.mp hc).1
      (by omega) done
  · rw [← List.map_eq_flatMap]

end Window

section Gradient

variable {troposphere height : GridView T} (h : FiniteLayers troposphere height)
  {y x : Nat} (hrows : 2 ≤ height.rows) (hy : y < height.rows) (hx : (x : Int) + 1 < height.columns)
include h hrows hy hx

theorem troposphericGradientAt_eq : troposphericGradientAt troposphere height y x =
    .ok ((sumsOver troposphere height (windowList height.rows height.columns y x)).solve
      (((windowEnd height.rows y - windowStart y + 1) *
        (windowEnd height.columns x - windowStart x) : Int) : T)) := by
  rw [troposphericGradientAt, if_neg (by omega), if_neg (by omega)]
  simp only [windowLoops_eq h, Outcome.ok_bind, Outcome.pure_eq]

omit [Field T] [LinearOrder T] h hrows in
theorem mem_windowPairs_self : ((y : Int), (x : Int)) ∈ height.windowPairs y x := by
  refine mem_windowPairs.mpr (List.mem_flatMap.mpr ⟨y, mem_intRange.mpr ⟨?_, ?_⟩,
    List.mem_map.mpr ⟨x, mem_intRange.mpr ⟨?_, ?_⟩, rfl⟩⟩)
  · exact windowStart_le_iff.mpr (by omega)
  · exact Int.lt_add_one_iff.mpr (le_windowEnd_iff.mpr (by omega))
  · exact windowStart_le_iff.mpr (by omega)
  · exact lt_windowEnd_iff.mpr (by omega)

omit [Field T] [LinearOrder T] h hrows hy hx in
theorem toFinset_windowList :
    (windowList height.rows height.columns y x).toFinset = height.windowPairs y x :=
  Finset.ext fun _ => List.mem_toFinset.trans mem_windowPairs.symm

omit [LinearOrder T] h hrows hy hx in
theorem sum_windowList (f : Int × Int → T) :
    ((windowList height.rows height.columns y x).map f).sum =
      ∑ p ∈ height.windowPairs y x, f p := by
  rw [← toFinset_windowList, List.sum_toFinset f (nodup_windowList _ _ _ _)]

omit [Field T] [LinearOrder T] h hrows in
theorem card_windowPairs : ((height.windowPairs y x).card : Int) =
    (windowEnd height.rows y - windowStart y + 1) *
      (windowEnd height.columns x - windowStart x) := by
  have hstart := windowStart_le_iff.mpr (show 0 ≤ (y : Int) ∧ (y : Int) - 12 ≤ y by omega)
  have hend := le_windowEnd_iff.mpr
    (show (y : Int) ≤ height.rows - 1 ∧ (y : Int) ≤ y + 12 by omega)
  have hstart' := windowStart_le_iff.mpr (show 0 ≤ (x : Int) ∧ (x : Int) - 12 ≤ x by omega)
  have hend' := lt_windowEnd_iff.mpr
    (show (x : Int) < height.columns - 1 ∧ (x : Int) < x + 12 by omega)
  rw [← toFinset_windowList, List.toFinset_card_of_nodup (nodup_windowList _ _ _ _)]
  have hlength : (windowList height.rows height.columns y x).length =
      (windowEnd height.rows y + 1 - windowStart y).toNat *
        (windowEnd height.columns x - windowStart x).toNat := by
    simp only [windowList, List.length_flatMap, List.length_map, length_intRange,
      List.map_const', List.sum_replicate, smul_eq_mul]
  rw [hlength, Nat.cast_mul, Int.toNat_of_nonneg (by omega), Int.toNat_of_nonneg (by omega)]
  congr 1
  omega

omit h hrows in
/-- The grid of the gradients has at each row and column that of the cell. -/
theorem computeTroposphericGradient_node {gradient : GridView T}
    (hcompute : computeTroposphericGradient troposphere height = .ok gradient) :
    troposphericGradientAt troposphere height y x = .ok (gradient.node y x) := by
  simp only [computeTroposphericGradient, Outcome.bind_eq_ok, Outcome.pure_eq,
    Outcome.ok.injEq] at hcompute
  obtain ⟨_, _, values, hvalues, rfl⟩ := hcompute
  rw [Outcome.collect_eq_ok] at hvalues
  have hread := congrArg (·[y * height.columns.toNat + x]?) hvalues
  simp only [List.getElem?_map] at hread
  rw [getElem?_flatMap_block (fun b _ => by rw [List.length_map, length_intRange, Int.sub_zero])
    (by omega), getElem?_intRange (by omega), Option.bind_some, List.getElem?_map,
    getElem?_intRange (by omega), Int.zero_add, Int.zero_add, Option.map_some, Int.toNat_natCast,
    Int.toNat_natCast] at hread
  obtain ⟨value, hvalue, hcell⟩ := Option.map_eq_some_iff.mp hread.symm
  have hplace : ((y : Int) * height.columns + x).toNat = y * height.columns.toNat + x := by
    have hcolumns : (height.columns.toNat : Int) = height.columns :=
      Int.toNat_of_nonneg (by omega)
    rw [← Int.toNat_natCast (y * height.columns.toNat + x)]
    push_cast
    rw [hcolumns]
  rw [← hcell, GridView.node, hplace, hvalue, Option.join_some]

/-- The slope of the least squares line through the differences of the window's pairs, unless all
height differences agree. -/
theorem troposphericGradientAt_cases [IsStrictOrderedRing T] :
    ∃ result, troposphericGradientAt troposphere height y x = .ok result ∧
      (result = none ↔ ∀ p ∈ height.windowPairs y x, ∀ q ∈ height.windowPairs y x,
        height.rowDifference p = height.rowDifference q) ∧
      ∀ slope, result = some slope → ∃ intercept, ∀ a b,
        IsLeastSquares (height.windowPairs y x) height.rowDifference troposphere.rowDifference
          a b ↔ a = intercept ∧ b = slope := by
  have hself := mem_windowPairs_self hy hx
  have hcount : (((windowEnd height.rows y - windowStart y + 1) *
      (windowEnd height.columns x - windowStart x) : Int) : T) = (height.windowPairs y x).card := by
    rw [← card_windowPairs hy hx, Int.cast_natCast]
  have hvalue := troposphericGradientAt_eq h hrows hy hx
  rw [sumsOver, solve_eq, hcount, sum_windowList, sum_windowList, sum_windowList,
    sum_windowList] at hvalue
  have hdet := normalDet_eq_zero_iff (x := height.rowDifference) ⟨_, hself⟩
  refine ⟨_, hvalue, ?_, fun slope hslope => ?_⟩
  · rw [← hdet, normalDet]
    split <;> simp_all
  · split at hslope
    · cases hslope
    next hne =>
      rw [Option.some.injEq] at hslope
      have hdet' : normalDet (height.windowPairs y x) height.rowDifference ≠ 0 := hne
      have hvaries := hdet.not.mp hdet'
      simp only [not_forall] at hvaries
      obtain ⟨p, hp, q, hq, hpq⟩ := hvaries
      refine ⟨_, fun a b => (normalEquations_of_det hdet' ?_
        (div_mul_cancel₀ _ hdet')).isLeastSquares_iff hp hq hpq⟩
      rw [← hslope]
      exact div_mul_cancel₀ _ hdet'

/-- **The gradient is the least squares slope** of the pairs of neighbours in the window, and is
invalid exactly when all their height differences agree; `ComputeTroposphericGradient` has it at the
cell. -/
theorem gradient_leastSquares [IsStrictOrderedRing T] :
    (∃ result, troposphericGradientAt troposphere height y x = .ok result ∧
      (result = none ↔ ∀ p ∈ height.windowPairs y x, ∀ q ∈ height.windowPairs y x,
        height.rowDifference p = height.rowDifference q) ∧
      ∀ slope, result = some slope → ∃ intercept, ∀ a b,
        IsLeastSquares (height.windowPairs y x) height.rowDifference troposphere.rowDifference
          a b ↔ a = intercept ∧ b = slope) ∧
    ∀ gradient, computeTroposphericGradient troposphere height = .ok gradient →
      troposphericGradientAt troposphere height y x = .ok (gradient.node y x) :=
  ⟨troposphericGradientAt_cases h hrows hy hx,
    fun _ hcompute => computeTroposphericGradient_node hy hx hcompute⟩

end Gradient

section Example

/-- Two rows of three cells. -/
def stepHeights : GridView ℚ := ⟨[some 0, some 1, some 5, some 2, some 2, some 3], 2, 3⟩

def stepDelays : GridView ℚ := ⟨[some 0, some 3, some 1, some 4, some 1, some 5], 2, 3⟩

theorem finiteLayers_steps : FiniteLayers stepDelays stepHeights :=
  ⟨⟨by decide, by decide, by decide⟩, ⟨by decide, by decide, by decide⟩, rfl, rfl,
    by decide +kernel, by decide +kernel⟩

theorem gradient_leastSquares_steps :
    (∃ result, troposphericGradientAt stepDelays stepHeights 0 1 = .ok result ∧
      (result = none ↔ ∀ p ∈ stepHeights.windowPairs (0 : Nat) (1 : Nat),
        ∀ q ∈ stepHeights.windowPairs (0 : Nat) (1 : Nat),
          stepHeights.rowDifference p = stepHeights.rowDifference q) ∧
      ∀ slope, result = some slope → ∃ intercept, ∀ a b,
        IsLeastSquares (stepHeights.windowPairs (0 : Nat) (1 : Nat))
          stepHeights.rowDifference stepDelays.rowDifference a b ↔
            a = intercept ∧ b = slope) ∧
    ∀ gradient, computeTroposphericGradient stepDelays stepHeights = .ok gradient →
      troposphericGradientAt stepDelays stepHeights 0 1 = .ok (gradient.node (0 : Nat) (1 : Nat)) :=
  gradient_leastSquares finiteLayers_steps (by decide) (by decide) (by decide)

/-- One row of three cells. -/
def rowHeights : GridView ℚ := ⟨[some 0, some 1, some 5], 1, 3⟩

def rowDelays : GridView ℚ := ⟨[some 0, some 0, some 0], 1, 3⟩

/-- Its differences do not agree, and it has no gradient. -/
theorem gradient_singleRow : FiniteLayers rowDelays rowHeights ∧
    troposphericGradientAt rowDelays rowHeights 0 0 = .ok none ∧
    ¬ ∀ p ∈ rowHeights.windowPairs 0 0, ∀ q ∈ rowHeights.windowPairs 0 0,
      rowHeights.rowDifference p = rowHeights.rowDifference q := by
  refine ⟨⟨⟨by decide, by decide, by decide⟩, ⟨by decide, by decide, by decide⟩, rfl, rfl,
    by decide +kernel, by decide +kernel⟩, by decide +kernel, fun h => ?_⟩
  have hfirst : ((0, 0) : Int × Int) ∈ rowHeights.windowPairs 0 0 :=
    mem_windowPairs.mpr (by decide)
  have hsecond : ((0, 1) : Int × Int) ∈ rowHeights.windowPairs 0 0 :=
    mem_windowPairs.mpr (by decide)
  exact absurd (h _ hfirst _ hsecond) (by decide +kernel)

end Example

end Alus.Etad
