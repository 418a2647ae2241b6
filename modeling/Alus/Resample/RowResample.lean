import Mathlib.Algebra.Order.Floor.Semifield
import Mathlib.Data.Rat.Floor
import Alus.Lib.AreaAverage
import Alus.Lib.Kernel

/-!
# Row resampling

Each pixel of an output row is mixed from the two input pixels that its ends lie in
(`row_resample.cu`). The positions are exact, the products of an index and a length are `int`s, and
a value that is not a number leaves no number in what is computed from it, whatever its weight.
-/

namespace Alus.Resample

open Alus.Lib

/-! ## A pixel -/

section Pixel

variable {F : Type} [Field F] [LinearOrder F] [FloorRing F]

/-- The pixels that are read, and their weights. -/
structure PixelSamples (F : Type) where
  inIndex1 : Nat
  inIndex2 : Nat
  index1Factor : F
  index2Factor : F

def pixelSamples (x inSize outSize : Nat) (pixelRatio : F) : Outcome (PixelSamples F) := do
  let start ← index32 (x * inSize)
  let stop ← index32 ((x + 1) * inSize)
  let startDist : F := start / outSize
  let endDist : F := stop / outSize
  let inIndex1 := ⌊startDist⌋.toNat
  let inIndex2 := ⌊endDist⌋.toNat
  if inIndex1 = inIndex2 then return ⟨inIndex1, inIndex2, 1, 0⟩
  else return ⟨inIndex1, inIndex2, (1 - Int.fract startDist) / pixelRatio,
    Int.fract endDist / pixelRatio⟩

/-- `InterpolatePixelValue`. -/
def interpolatePixelValue (x : Nat) (input : Nat → Option F) (inSize outSize : Nat)
    (pixelRatio : F) : Outcome (Option F) := do
  let samples ← pixelSamples x inSize outSize pixelRatio
  let val1 := input samples.inIndex1
  let val2 := input samples.inIndex2
  return Option.map₂ (· + ·) (val1.map (· * samples.index1Factor))
    (val2.map (· * samples.index2Factor))

def getRatio (inLineLen outLineLen : Nat) : F := inLineLen / outLineLen

end Pixel

/-! ## Rows and images -/

section Rows

variable {F : Type} [Field F] [LinearOrder F] [FloorRing F]

def fillLineFrom (inLine : Nat → Option F) (inSize outSize : Nat) : Outcome (List (Option F)) :=
  Outcome.collect ((List.range outSize).map fun i =>
    interpolatePixelValue i inLine inSize outSize (getRatio inSize outSize))

/-- `ResampleKernel`, the thread at `idx` and `idy`. -/
def resampleKernel (input : Nat → Option F) (inColumns outColumns outRows : Nat) (pixelRatio : F)
    (idx idy : Nat) : Outcome (Option (Nat × Option F)) :=
  if outColumns ≤ idx ∨ outRows ≤ idy then return none
  else do
    let bufferOutOffset ← index32 (idy * outColumns)
    let bufferInOffset ← index32 (idy * inColumns)
    let value ← interpolatePixelValue idx (fun i => input (bufferInOffset + i)) inColumns outColumns
      pixelRatio
    return some (bufferOutOffset + idx, value)

def process (s : Scheduler) (input : Nat → Option F) (inColumns outColumns outRows : Nat)
    (output : Nat → Option F) : Outcome (Nat → Option F) :=
  launchStores s ⟨(outColumns + 15) / 16, (outRows + 15) / 16⟩ ⟨16, 16⟩
    (resampleKernel input inColumns outColumns outRows (getRatio inColumns outColumns)) output

end Rows

/-- What `Execute::Run` checks before a row resampling. -/
def checkRowResampling (resampleColumns resampleRows bandColumns bandRows : Nat) (float32 : Bool) :
    Except String Unit := do
  if resampleRows ≠ bandRows then
    throw "For row resampling the input and output dimensions must match for row count(height)."
  if resampleColumns < bandColumns then
    throw "Row resampling does not support under sampling."
  if !float32 then
    throw "Row resampling supports 32 bit floats only."

theorem le_of_checkRowResampling {resampleColumns resampleRows bandColumns bandRows : Nat}
    {float32 : Bool}
    (h : checkRowResampling resampleColumns resampleRows bandColumns bandRows float32 = .ok ()) :
    bandColumns ≤ resampleColumns ∧ resampleRows = bandRows := by
  unfold checkRowResampling at h
  by_cases hrows : resampleRows = bandRows
  · by_cases hcolumns : resampleColumns < bandColumns
    · simp [hrows, hcolumns] at h
      cases h
    · exact ⟨not_lt.mp hcolumns, hrows⟩
  · simp [hrows] at h
    cases h

/-! ## The samples of a pixel -/

section Samples

variable {F : Type} [Field F] [LinearOrder F] [IsStrictOrderedRing F] [FloorRing F] {n m x : Nat}

theorem floor_toNat_div (k m : Nat) : ⌊(k : F) / m⌋.toNat = k / m := by
  rw [Int.floor_toNat, Nat.floor_div_eq_div]

/-- The ends lie in one input pixel, or in two that follow each other. -/
theorem pixelSamples_eq (hfits : (x + 1) * n < 2147483648) (ratio : F) :
    pixelSamples x n m ratio = .ok (if x * n / m = (x + 1) * n / m then
        ⟨x * n / m, (x + 1) * n / m, 1, 0⟩
      else ⟨x * n / m, (x + 1) * n / m, (1 - (x * n % m : Nat) / m) / ratio,
        ((x + 1) * n % m : Nat) / m / ratio⟩) := by
  have hstart : x * n < 2147483648 := (Nat.mul_le_mul_right n (Nat.le_succ x)).trans_lt hfits
  rw [pixelSamples, index32_of_lt hstart, Outcome.ok_bind, index32_of_lt hfits, Outcome.ok_bind]
  simp only [floor_toNat_div, Int.fract_div_natCast_eq_div_natCast_mod]
  split <;> rfl

theorem startIndex_lt (hn : 0 < n) (hx : x < m) : x * n / m < n :=
  Nat.div_lt_of_lt_mul ((Nat.mul_lt_mul_right hn).mpr hx)

/-- Only the last pixel ends behind the row. -/
theorem endIndex_lt_iff (hn : 0 < n) (hx : x < m) : (x + 1) * n / m < n ↔ x + 1 < m := by
  constructor
  · intro h
    by_contra hlast
    have heq : x + 1 = m := by omega
    rw [heq, Nat.mul_div_cancel_left n (by omega)] at h
    exact Nat.lt_irrefl n h
  · exact startIndex_lt hn

theorem endIndex_le (hm : n ≤ m) (hx : x < m) : (x + 1) * n / m ≤ x * n / m + 1 := by
  have hpos : 0 < m := by omega
  calc (x + 1) * n / m ≤ (x * n + m) / m := Nat.div_le_div_right (by rw [Nat.succ_mul]; omega)
    _ = x * n / m + 1 := Nat.add_div_right _ hpos

theorem startIndex_le (x n m : Nat) : x * n / m ≤ (x + 1) * n / m :=
  Nat.div_le_div_right (Nat.mul_le_mul_right n (Nat.le_succ x))

end Samples

section Positions

variable {F : Type} [Field F] [LinearOrder F] [IsStrictOrderedRing F] {m : Nat}

/-- A position from its pixel and the rest. -/
theorem position_eq (hpos : 0 < m) (k : Nat) :
    (k : F) / m = (k / m : Nat) + (k % m : Nat) / m := by
  have hm : (m : F) ≠ 0 := Nat.cast_ne_zero.mpr (by omega)
  have hsplit : (m : F) * (k / m : Nat) + (k % m : Nat) = k := by
    exact_mod_cast Nat.div_add_mod k m
  rw [div_eq_iff hm, add_mul, div_mul_cancel₀ _ hm, mul_comm, hsplit]

theorem rest_lt (hpos : 0 < m) (k : Nat) : ((k % m : Nat) : F) / m < 1 := by
  rw [div_lt_one (by exact_mod_cast hpos)]
  exact_mod_cast Nat.mod_lt k hpos

theorem rest_nonneg (k : Nat) : 0 ≤ ((k % m : Nat) : F) / m :=
  div_nonneg (Nat.cast_nonneg _) (Nat.cast_nonneg _)

end Positions

/-! ## The average -/

section Average

variable {F : Type} [Field F] [LinearOrder F] [IsStrictOrderedRing F] [FloorRing F] {n m x : Nat}

/-- The integral of the row over `[x * n / m, (x + 1) * n / m)`, divided by `n / m`. -/
def areaAverage (row : Nat → F) (n m x : Nat) : F :=
  areaIntegral row n ((x * n : Nat) / m) (((x + 1) * n : Nat) / m) / getRatio n m

variable (F) in
/-- The pixel is the average over its part of the row, and nothing else is read for it. -/
structure PixelAveraged (n m x : Nat) : Prop where
  samples : ∃ samples, pixelSamples x n m (getRatio n m : F) = .ok samples ∧
    (samples.inIndex1 < n ∧ samples.inIndex2 < n) ∧
    (0 ≤ samples.index1Factor ∧ 0 ≤ samples.index2Factor) ∧
    samples.index1Factor + samples.index2Factor = 1
  /-- Whatever is stored behind the row. -/
  average : ∀ (row : Nat → F) (input : Nat → Option F), (∀ i < n, input i = some (row i)) →
    interpolatePixelValue x input n m (getRatio n m) = .ok (some (areaAverage row n m x))

omit [FloorRing F] in
theorem getRatio_pos (hn : 0 < n) (hm : 0 < m) : 0 < (getRatio n m : F) :=
  div_pos (Nat.cast_pos.mpr hn) (Nat.cast_pos.mpr hm)

omit [LinearOrder F] [IsStrictOrderedRing F] [FloorRing F] in
/-- The ends of a pixel are `n / m` apart. -/
theorem end_sub_start (n m x : Nat) :
    (((x + 1) * n : Nat) : F) / m - ((x * n : Nat) : F) / m = getRatio n m := by
  rw [← sub_div, getRatio]
  congr 1
  push_cast
  ring

theorem pixelAveraged_of_inside (hn : 0 < n) (hm : n ≤ m) (hx : x + 1 < m)
    (hfits : (x + 1) * n < 2147483648) : PixelAveraged F n m x := by
  have hpos : 0 < m := by omega
  have hratio : 0 < (getRatio n m : F) := getRatio_pos hn hpos
  have hstart := startIndex_lt hn (show x < m by omega)
  have hend := startIndex_lt hn hx
  have hle := startIndex_le x n m
  have hnext := endIndex_le hm (show x < m by omega)
  have hsamples := pixelSamples_eq (F := F) (m := m) hfits (getRatio n m)
  have hlength := end_sub_start (F := F) n m x
  have ha := position_eq (F := F) hpos (x * n)
  have hb := position_eq (F := F) hpos ((x + 1) * n)
  have ha0 := rest_nonneg (F := F) (m := m) (x * n)
  have ha1 := rest_lt (F := F) hpos (x * n)
  have hb0 := rest_nonneg (F := F) (m := m) ((x + 1) * n)
  have hb1 := rest_lt (F := F) hpos ((x + 1) * n)
  -- the output pixel lies in one input pixel or reaches into the next one
  by_cases hsame : x * n / m = (x + 1) * n / m
  · rw [if_pos hsame] at hsamples
    refine ⟨⟨_, hsamples, ⟨hstart, hend⟩, ⟨zero_le_one, le_rfl⟩, add_zero 1⟩,
      fun row input hrow => ?_⟩
    rw [interpolatePixelValue, hsamples, Outcome.ok_bind, Outcome.pure_eq]
    dsimp only
    rw [hrow _ hstart, hrow _ hend, Option.map_some, Option.map_some, Option.map₂_some_some,
      areaAverage, areaIntegral_cell row hstart (by rw [ha]; linarith) (by linarith) (by
        rw [hb, ← hsame]
        linarith), hlength, mul_div_assoc, div_self hratio.ne', mul_zero, add_zero]
  · have hfollow : (x + 1) * n / m = x * n / m + 1 := by omega
    have hcast : (((x + 1) * n / m : Nat) : F) = (x * n / m : Nat) + 1 := by
      rw [hfollow, Nat.cast_succ]
    rw [if_neg hsame] at hsamples
    refine ⟨⟨_, hsamples, ⟨hstart, hend⟩, ⟨div_nonneg (by linarith) hratio.le,
      div_nonneg hb0 hratio.le⟩, ?_⟩, fun row input hrow => ?_⟩
    -- the two weights add up to one
    · dsimp only
      rw [← add_div, div_eq_one_iff_eq hratio.ne']
      linarith
    · rw [interpolatePixelValue, hsamples, Outcome.ok_bind, Outcome.pure_eq]
      dsimp only
      rw [hrow _ hstart, hrow _ hend, Option.map_some, Option.map_some, Option.map₂_some_some,
        areaAverage, areaIntegral_cells row (hfollow ▸ hend) (by linarith) (by linarith)
          (by linarith) (by linarith), ← hfollow, ← mul_div_assoc, ← mul_div_assoc, ← add_div]
      refine congrArg (fun v => Outcome.ok (some (v / _))) ?_
      -- the weights are the lengths of the two pieces
      rw [show (1 : F) - (x * n % m : Nat) / m = (x * n / m : Nat) + 1 - (x * n : Nat) / m by
          rw [ha]; ring,
        show (((x + 1) * n % m : Nat) : F) / m =
          ((x + 1) * n : Nat) / m - ((x * n / m : Nat) + 1) by rw [hb, hcast]; ring]

omit [IsStrictOrderedRing F] in
theorem fits_of_pixelAveraged (h : PixelAveraged F n m x) : (x + 1) * n < 2147483648 := by
  obtain ⟨samples, hsamples, -⟩ := h.samples
  obtain ⟨_, -, hsamples⟩ := Outcome.bind_eq_ok.mp hsamples
  obtain ⟨_, hstop, -⟩ := Outcome.bind_eq_ok.mp hsamples
  exact (index32_eq_ok.mp hstop).1

/-- The last pixel ends where the row does, and the element behind the row is read. -/
theorem inside_of_pixelAveraged (hn : 0 < n) (hx : x < m) (h : PixelAveraged F n m x) :
    x + 1 < m := by
  obtain ⟨samples, hsamples, ⟨-, hinside⟩, -⟩ := h.samples
  rw [pixelSamples_eq (fits_of_pixelAveraged h)] at hsamples
  have hindex : samples.inIndex2 = (x + 1) * n / m := by
    rw [← Outcome.ok.inj hsamples]
    split <;> rfl
  rw [hindex] at hinside
  exact (endIndex_lt_iff hn hx).mp hinside

variable (F) in
/-- Every pixel but the last one is the average over its part of the row, as long as its end is an
`int`; so no row is averaged to its end. -/
theorem pixelAveraged_iff (hn : 1 ≤ n) (hm : n ≤ m) :
    (∀ x < m, PixelAveraged F n m x ↔ x + 1 < m ∧ (x + 1) * n < 2147483648) ∧
      ¬ ∀ x < m, PixelAveraged F n m x := by
  refine ⟨fun x hx => ⟨fun h => ?_, fun h => ?_⟩, fun hall => ?_⟩
  · exact ⟨inside_of_pixelAveraged hn hx h, fits_of_pixelAveraged h⟩
  · exact pixelAveraged_of_inside hn hm h.1 h.2
  · have hlast := inside_of_pixelAveraged hn (show m - 1 < m by omega) (hall (m - 1) (by omega))
    omega

/-- Two pixels resampled to three. -/
theorem pixelAveraged_two_three :
    (∀ x < 3, PixelAveraged ℚ 2 3 x ↔ x + 1 < 3 ∧ (x + 1) * 2 < 2147483648) ∧
      ¬ ∀ x < 3, PixelAveraged ℚ 2 3 x :=
  pixelAveraged_iff ℚ (by decide) (by decide)

/-- The last of three pixels is no number, if there is none behind the row of two. -/
theorem not_pixelAveraged_last : ¬ ∀ x < 3, PixelAveraged ℚ 2 3 x := by
  intro h
  have haverage := (h 2 (by decide)).average (fun _ => 1) (fun i => if i < 2 then some 1 else none)
    fun i hi => if_pos hi
  have hlost : interpolatePixelValue 2 (fun i => if i < 2 then some (1 : ℚ) else none) 2 3
      (getRatio 2 3) = .ok none := by
    decide +kernel
  rw [hlost] at haverage
  cases haverage

end Average

/-! ## Host and device -/

section Lines

variable {F : Type} [Field F] [LinearOrder F] [IsStrictOrderedRing F] [FloorRing F]
  {n m rows : Nat}

theorem exists_interpolatePixelValue (hfits : m * n < 2147483648) (input : Nat → Option F)
    {x : Nat} (hx : x < m) :
    ∃ value, interpolatePixelValue x input n m (getRatio n m) = .ok value := by
  have hproduct : (x + 1) * n < 2147483648 := (Nat.mul_le_mul_right n hx).trans_lt hfits
  rw [interpolatePixelValue, pixelSamples_eq hproduct, Outcome.ok_bind]
  exact ⟨_, rfl⟩

/-- On the host a row is averaged but for its last pixel. -/
theorem exists_fillLineFrom (hn : 1 ≤ n) (hm : n ≤ m) (hfits : m * n < 2147483648)
    (row : Nat → F) (input : Nat → Option F) (hrow : ∀ i < n, input i = some (row i)) :
    ∃ last, fillLineFrom input n m =
      .ok ((List.range (m - 1)).map (fun x => some (areaAverage row n m x)) ++ [last]) := by
  obtain ⟨last, hlast⟩ := exists_interpolatePixelValue hfits input (show m - 1 < m by omega)
  refine ⟨last, Outcome.collect_eq_ok.mpr ?_⟩
  have hsplit : List.range m = List.range (m - 1) ++ [m - 1] := by
    rw [← List.range_succ, Nat.succ_eq_add_one, Nat.sub_add_cancel (by omega)]
  rw [hsplit, List.map_append, List.map_append, List.map_map, List.map_singleton,
    List.map_singleton, hlast]
  congr 1
  refine List.map_congr_left fun x hx => ?_
  have hx := List.mem_range.mp hx
  have hproduct : (x + 1) * n < 2147483648 :=
    (Nat.mul_le_mul_right n (by omega : x + 1 ≤ m)).trans_lt hfits
  exact (pixelAveraged_of_inside hn hm (by omega) hproduct).average row input hrow

/-- On the device each pixel of an image has the value that the host computes from its row,
whatever the order of the threads. -/
theorem exists_process (s : Scheduler) (hn : 1 ≤ n) (hm : n ≤ m) (hrows : 0 < rows)
    (hgrid : rows ≤ 1048560) (hfits : m * n < 2147483648) (hsize : rows * m ≤ 2147483648)
    (input output : Nat → Option F) :
    ∃ result, process s input n m rows output = .ok result ∧ ∀ x < m, ∀ y < rows,
      interpolatePixelValue x (fun i => input (y * n + i)) n m (getRatio n m) =
        .ok (result (y * m + x)) := by
  have hwidth : m ≤ m * n := Nat.le_mul_of_pos_right m hn
  have hpixel : ∀ x < m, ∀ y < rows, ∃ value,
      interpolatePixelValue x (fun i => input (y * n + i)) n m (getRatio n m) = .ok value ∧
      resampleKernel input n m rows (getRatio n m) x y = .ok (some (y * m + x, value)) := by
    intro x hx y hy
    obtain ⟨value, hvalue⟩ :=
      exists_interpolatePixelValue hfits (fun i => input (y * n + i)) hx
    have hindex := row_index_lt hx hy
    have hin : y * n ≤ y * m := Nat.mul_le_mul_left y hm
    rw [Nat.mul_comm m] at hindex
    refine ⟨value, hvalue, ?_⟩
    rw [resampleKernel, if_neg (by omega),
      index32_of_lt (show y * m < 2147483648 by omega), Outcome.ok_bind,
      index32_of_lt (show y * n < 2147483648 by omega), Outcome.ok_bind, hvalue]
    rfl
  have houtside : ∀ x y, m ≤ x ∨ rows ≤ y →
      resampleKernel input n m rows (getRatio n m) x y = .ok none :=
    fun x y hout => if_pos hout
  have hvalid : Dim3.Valid ⟨(m + 15) / 16, (rows + 15) / 16⟩ := by
    unfold Dim3.Valid
    dsimp only
    omega
  obtain ⟨result, hresult⟩ := exists_launchStores s _ ⟨16, 16⟩ (fun x _ y _ => by
    by_cases hout : m ≤ x ∨ rows ≤ y
    · exact ⟨_, houtside x y hout⟩
    · obtain ⟨value, -, hkernel⟩ := hpixel x (by omega) y (by omega)
      exact ⟨_, hkernel⟩) output
  refine ⟨result, hresult, fun x hx y hy => ?_⟩
  obtain ⟨value, hvalue, hkernel⟩ := hpixel x hx y hy
  rw [hvalue, launchStores_stored hresult hvalid (show x < (m + 15) / 16 * 16 by omega)
    (show y < (rows + 15) / 16 * 16 by omega) hkernel]
  -- no other thread writes there
  intro x' y' b hb
  by_cases hout : m ≤ x' ∨ rows ≤ y'
  · rw [houtside x' y' hout] at hb
    cases hb
  · obtain ⟨value', -, hkernel'⟩ := hpixel x' (by omega) y' (by omega)
    rw [hkernel', Outcome.ok.injEq, Option.some.injEq, Prod.mk.injEq] at hb
    obtain ⟨hindex, rfl⟩ := hb
    obtain ⟨rfl, rfl⟩ := row_index_inj (by omega) hx hindex
    exact (Prod.mk.inj (Option.some.inj (Outcome.ok.inj (hkernel'.symm.trans hkernel)))).2

end Lines

end Alus.Resample
