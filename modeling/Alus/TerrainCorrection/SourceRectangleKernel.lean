import Alus.Lib.Atomics
import Alus.Lib.GridPixels
import Alus.TerrainCorrection.SourceRectangle
import Alus.Util.RasterArea

/-!
# The kernel of the source rectangle

`GetSourceRectangleKernel` (`terrain_correction_kernel.cu`): each thread stores the indices of its
pixel, and four atomic operations reduce the positions of all pixels to their box. The threads run
in no particular order, and their operations come in any order between each other.
-/

namespace Alus.TerrainCorrection

open Alus.Lib Alus.Util

section Kernel

variable {T : Type} [Field T] [LinearOrder T] [FloorRing T]

/-- `d_azimuth_index`, `d_range_index` and the result that the kernel reduces to. An azimuth index
that is NaN is `some none`; what has not been stored is `none`. -/
structure IndexArrays (T : Type) where
  azimuthIndex : List (Option (Option T))
  rangeIndex : List (Option T)
  result : SourceRectangleResult

/-- An operation of a thread. -/
inductive IndexOp (T : Type) where
  | storeAzimuth (index : Nat) (azimuthIndex : Option T)
  | storeRange (index : Nat) (rangeIndex : T)
  | maxAzimuth (azimuth : Int)
  | minAzimuth (azimuth : Int)
  | maxRange (range : Int)
  | minRange (range : Int)

/-- A store to an array; there is no cell past its end. -/
def storeCell {α : Type} (cells : List (Option α)) (index : Nat) (value : α) :
    Option (List (Option α)) :=
  if index < cells.length then some (cells.set index (some value)) else none

/-- `atomicMax` and `atomicMin`. -/
def IndexOp.reduce (result : SourceRectangleResult) : IndexOp T → SourceRectangleResult
  | .maxAzimuth azimuth => { result with maxAzimuth := max result.maxAzimuth azimuth }
  | .minAzimuth azimuth => { result with minAzimuth := min result.minAzimuth azimuth }
  | .maxRange range => { result with maxRange := max result.maxRange range }
  | .minRange range => { result with minRange := min result.minRange range }
  | _ => result

def IndexOp.run (m : IndexArrays T) : IndexOp T → Option (IndexArrays T)
  | .storeAzimuth index azimuthIndex => do
    let cells ← storeCell m.azimuthIndex index azimuthIndex
    return { m with azimuthIndex := cells }
  | .storeRange index rangeIndex => do
    let cells ← storeCell m.rangeIndex index rangeIndex
    return { m with rangeIndex := cells }
  | op => some { m with result := op.reduce m.result }

/-- What a thread does, for its cell and for what it finds of its pixel. -/
def threadOps (index : Nat) : Option (T × T) → List (IndexOp T)
  | none => [.storeAzimuth index none]
  | some positionData =>
    let rangeInt := toInt positionData.1
    let aziInt := toInt positionData.2
    [.storeAzimuth index (some positionData.2), .storeRange index positionData.1,
      .maxAzimuth aziInt, .minAzimuth aziInt, .maxRange rangeInt, .minRange rangeInt]

/-- `block_size` of the kernels. -/
def blockSize : Dim3 := ⟨16, 16⟩

/-- `grid_dim` of `GetSourceRectangle`. -/
def gridDim (tile : Rectangle) : Dim3 :=
  ⟨((tile.width + 16 - 1) / 16).toNat, ((tile.height + 16 - 1) / 16).toNat⟩

variable (band : SourceBand T) (cells : TargetCells T)

/-- The operation of a thread with the number of the step, if it has so many. -/
def getSourceRectangleKernel (tile : Rectangle) (t : ThreadStep) : Option (IndexOp T) := do
  let k ← threadPixel blockSize tile t
  (threadOps (pixelIndex tile k) (acceptedCell band cells k.1 k.2))[t.phase]?

/-- The operations of all threads, in their order. -/
def launchOps (s : AtomicOrder) (tile : Rectangle) : List (IndexOp T) :=
  (s.order (threadSteps (gridDim tile) blockSize 6)).filterMap
    (getSourceRectangleKernel band cells tile)

/-- The launch. A grid that the device does not take makes `CHECK_CUDA_ERR` throw. -/
def launchGetSourceRectangle (s : AtomicOrder) (tile : Rectangle) (m : IndexArrays T) :
    Option (IndexArrays T) :=
  if (gridDim tile).Valid then (launchOps band cells s tile).foldlM IndexOp.run m else none

/-! ## Operations in any order -/

section Ops

variable {ops : List (IndexOp T)} {result : SourceRectangleResult} {c : Int}

omit [Field T] [LinearOrder T] [FloorRing T]

theorem maxAzimuth_reduce : (ops.foldl IndexOp.reduce result).maxAzimuth ≤ c ↔
    result.maxAzimuth ≤ c ∧ ∀ azimuth, .maxAzimuth azimuth ∈ ops → azimuth ≤ c := by
  induction ops generalizing result with
  | nil => simp
  | cons op ops ih => cases op <;> simp [ih, IndexOp.reduce, and_assoc]

theorem minAzimuth_reduce : c ≤ (ops.foldl IndexOp.reduce result).minAzimuth ↔
    c ≤ result.minAzimuth ∧ ∀ azimuth, .minAzimuth azimuth ∈ ops → c ≤ azimuth := by
  induction ops generalizing result with
  | nil => simp
  | cons op ops ih => cases op <;> simp [ih, IndexOp.reduce, and_assoc]

theorem maxRange_reduce : (ops.foldl IndexOp.reduce result).maxRange ≤ c ↔
    result.maxRange ≤ c ∧ ∀ range, .maxRange range ∈ ops → range ≤ c := by
  induction ops generalizing result with
  | nil => simp
  | cons op ops ih => cases op <;> simp [ih, IndexOp.reduce, and_assoc]

theorem minRange_reduce : c ≤ (ops.foldl IndexOp.reduce result).minRange ↔
    c ≤ result.minRange ∧ ∀ range, .minRange range ∈ ops → c ≤ range := by
  induction ops generalizing result with
  | nil => simp
  | cons op ops ih => cases op <;> simp [ih, IndexOp.reduce, and_assoc]

/-- A store to the index arrays puts the value of its cell, which is one of the `n`. -/
def IndexOp.Stores (n : Nat) (azimuth : Nat → Option T) (range : Nat → T) : IndexOp T → Prop
  | .storeAzimuth index azimuthIndex => index < n ∧ azimuthIndex = azimuth index
  | .storeRange index rangeIndex => index < n ∧ rangeIndex = range index
  | _ => True

/-- The operations of a launch that went so far. -/
structure Ran (n : Nat) (azimuth : Nat → Option T) (range : Nat → T) (ops : List (IndexOp T))
    (m m' : IndexArrays T) : Prop where
  azimuth_length : m'.azimuthIndex.length = n
  range_length : m'.rangeIndex.length = n
  azimuth : ∀ i, .storeAzimuth i (azimuth i) ∈ ops ∨ m.azimuthIndex[i]? = some (some (azimuth i)) →
    m'.azimuthIndex[i]? = some (some (azimuth i))
  range : ∀ i, .storeRange i (range i) ∈ ops ∨ m.rangeIndex[i]? = some (some (range i)) →
    m'.rangeIndex[i]? = some (some (range i))
  result : m'.result = ops.foldl IndexOp.reduce m.result

theorem getElem?_set_of {α : Type} {cells : List (Option α)} {i index : Nat} {value : Nat → α}
    (hindex : index < cells.length)
    (h : i = index ∨ cells[i]? = some (some (value i))) :
    (cells.set index (some (value index)))[i]? = some (some (value i)) := by
  by_cases hi : i = index
  · subst hi
    exact List.getElem?_set_self hindex
  · rw [List.getElem?_set_ne (Ne.symm hi)]
    exact h.resolve_left hi

/-- Whatever the order, each cell ends with its value and the result with the box. -/
theorem exists_foldlM_run {n : Nat} {azimuth : Nat → Option T} {range : Nat → T}
    (hops : ∀ op ∈ ops, op.Stores n azimuth range) {m : IndexArrays T}
    (hazimuth : m.azimuthIndex.length = n) (hrange : m.rangeIndex.length = n) :
    ∃ m', ops.foldlM IndexOp.run m = some m' ∧ Ran n azimuth range ops m m' := by
  induction ops generalizing m with
  | nil => exact ⟨m, rfl, hazimuth, hrange, fun i h => h.resolve_left List.not_mem_nil,
      fun i h => h.resolve_left List.not_mem_nil, rfl⟩
  | cons op ops ih =>
    have hrest {m : IndexArrays T} :=
      ih (m := m) fun op' hop' => hops op' (List.mem_cons_of_mem op hop')
    have hop := hops op List.mem_cons_self
    cases op with
    | storeAzimuth index azimuthIndex =>
      obtain ⟨hindex, rfl⟩ := hop
      obtain ⟨m', hm', hran⟩ := hrest
        (m := { m with azimuthIndex := m.azimuthIndex.set index (some (azimuth index)) })
        (by simpa using hazimuth) hrange
      refine ⟨m', ?_, hran.azimuth_length, hran.range_length, fun i h => ?_, fun i h => ?_,
        hran.result⟩
      · simpa [IndexOp.run, storeCell, hazimuth, hindex] using hm'
      · refine hran.azimuth i ?_
        rw [List.mem_cons, IndexOp.storeAzimuth.injEq] at h
        rcases h with (⟨hi, -⟩ | hmem) | hbefore
        · exact .inr (getElem?_set_of (hazimuth ▸ hindex) (.inl hi))
        · exact .inl hmem
        · exact .inr (getElem?_set_of (hazimuth ▸ hindex) (.inr hbefore))
      · exact hran.range i (by simpa using h)
    | storeRange index rangeIndex =>
      obtain ⟨hindex, rfl⟩ := hop
      obtain ⟨m', hm', hran⟩ := hrest
        (m := { m with rangeIndex := m.rangeIndex.set index (some (range index)) })
        hazimuth (by simpa using hrange)
      refine ⟨m', ?_, hran.azimuth_length, hran.range_length, fun i h => ?_, fun i h => ?_,
        hran.result⟩
      · simpa [IndexOp.run, storeCell, hrange, hindex] using hm'
      · exact hran.azimuth i (by simpa using h)
      · refine hran.range i ?_
        rw [List.mem_cons, IndexOp.storeRange.injEq] at h
        rcases h with (⟨hi, -⟩ | hmem) | hbefore
        · exact .inr (getElem?_set_of (hrange ▸ hindex) (.inl hi))
        · exact .inl hmem
        · exact .inr (getElem?_set_of (hrange ▸ hindex) (.inr hbefore))
    | maxAzimuth value | minAzimuth value | maxRange value | minRange value =>
      obtain ⟨m', hm', hran⟩ := hrest
        (m := { m with result := IndexOp.reduce m.result _ }) hazimuth hrange
      exact ⟨m', hm', hran.azimuth_length, hran.range_length,
        fun i h => hran.azimuth i (by simpa using h), fun i h => hran.range i (by simpa using h),
        hran.result⟩

end Ops

/-! ## The launch -/

section Launch

variable {band cells} {tile : Rectangle}

/-- The operations of a launch are those of the threads of all pixels. -/
theorem mem_ops {s : AtomicOrder} {op : IndexOp T} :
    op ∈ launchOps band cells s tile ↔
      ∃ k : Int × Int, tile.Contains k.1 k.2 ∧
        op ∈ threadOps (pixelIndex tile k) (acceptedCell band cells k.1 k.2) := by
  have hcovers : GridCovers (gridDim tile) blockSize tile :=
    ⟨by simp only [gridDim, blockSize]; omega, by simp only [gridDim, blockSize]; omega⟩
  rw [launchOps, List.mem_filterMap]
  constructor
  · rintro ⟨t, -, ht⟩
    obtain ⟨k, hk, hop⟩ := Option.bind_eq_some_iff.mp ht
    exact ⟨k, contains_of_threadPixel hk, List.mem_of_getElem? hop⟩
  · rintro ⟨k, hk, hop⟩
    obtain ⟨phase, hphase, rfl⟩ := List.getElem_of_mem hop
    have hsix : phase < 6 := by
      refine lt_of_lt_of_le hphase ?_
      unfold threadOps
      split <;> simp
    obtain ⟨t, ht, rfl, hpixel⟩ := exists_threadPixel hcovers hsix hk
    refine ⟨t, (s.perm _).mem_iff.mpr ht, ?_⟩
    rw [getSourceRectangleKernel, hpixel]
    exact List.getElem?_eq_getElem hphase

/-- A launch leaves the indices of every pixel, and the box of the accepted positions. -/
structure Indexed (band : SourceBand T) (cells : TargetCells T) (tile : Rectangle)
    (m : IndexArrays T) : Prop where
  azimuth : m.azimuthIndex =
    (rasterRead (fun k => (acceptedCell band cells k.1 k.2).map Prod.snd) tile).map some
  range_length : m.rangeIndex.length = pixelCount tile
  range : ∀ k : Int × Int, tile.Contains k.1 k.2 → ∀ p ∈ acceptedCell band cells k.1 k.2,
    m.rangeIndex[pixelIndex tile k]? = some (some p.1)
  result : m.result = sourceRectangleResult (acceptedCells band cells tile)

/-- What is reduced are the accepted positions, for an operation that each of them has. -/
theorem forall_mem_ops (s : AtomicOrder) (op : Int → IndexOp T) (value : T × T → Int)
    (hop : ∀ index p a, op a ∈ threadOps index (some p) ↔ a = value p)
    (hnone : ∀ index a, op a ∉ threadOps index none) {P : Int → Prop} :
    (∀ a, op a ∈ launchOps band cells s tile → P a) ↔
      ∀ a ∈ (acceptedCells band cells tile).map value, P a := by
  rw [List.forall_mem_map]
  constructor
  · intro h p hp
    obtain ⟨px, py, hk, hcell⟩ := mem_acceptedCells.mp hp
    refine h _ (mem_ops.mpr ⟨(px, py), hk, ?_⟩)
    rw [hcell]
    exact (hop _ p _).mpr rfl
  · intro h a ha
    obtain ⟨k, hk, hmem⟩ := mem_ops.mp ha
    cases hcell : acceptedCell band cells k.1 k.2 with
    | none =>
      rw [hcell] at hmem
      exact absurd hmem (hnone _ a)
    | some p =>
      rw [hcell] at hmem
      rw [(hop _ p a).mp hmem]
      exact h p (mem_acceptedCells.mpr ⟨k.1, k.2, hk, hcell⟩)

/-- Each bound is reduced from its start value and the accepted positions. -/
theorem foldl_reduce_launchOps (s : AtomicOrder) :
    (launchOps band cells s tile).foldl IndexOp.reduce (sourceRectangleResult ([] : List (T × T))) =
      sourceRectangleResult (acceptedCells band cells tile) := by
  set result := (launchOps band cells s tile).foldl IndexOp.reduce
    (sourceRectangleResult ([] : List (T × T))) with hresult
  have hminRange : result.minRange =
      (sourceRectangleResult (acceptedCells band cells tile)).minRange := by
    refine eq_of_forall_le_iff fun c => ?_
    rw [hresult, minRange_reduce, forall_mem_ops s .minRange (fun p => toInt p.1)
      (by simp [threadOps]) (by simp [threadOps])]
    exact le_foldl_min.symm
  have hmaxRange : result.maxRange =
      (sourceRectangleResult (acceptedCells band cells tile)).maxRange := by
    refine eq_of_forall_ge_iff fun c => ?_
    rw [hresult, maxRange_reduce, forall_mem_ops s .maxRange (fun p => toInt p.1)
      (by simp [threadOps]) (by simp [threadOps])]
    exact foldl_max_le.symm
  have hminAzimuth : result.minAzimuth =
      (sourceRectangleResult (acceptedCells band cells tile)).minAzimuth := by
    refine eq_of_forall_le_iff fun c => ?_
    rw [hresult, minAzimuth_reduce, forall_mem_ops s .minAzimuth (fun p => toInt p.2)
      (by simp [threadOps]) (by simp [threadOps])]
    exact le_foldl_min.symm
  have hmaxAzimuth : result.maxAzimuth =
      (sourceRectangleResult (acceptedCells band cells tile)).maxAzimuth := by
    refine eq_of_forall_ge_iff fun c => ?_
    rw [hresult, maxAzimuth_reduce, forall_mem_ops s .maxAzimuth (fun p => toInt p.2)
      (by simp [threadOps]) (by simp [threadOps])]
    exact foldl_max_le.symm
  exact congr (congr (congr (congrArg SourceRectangleResult.mk hminRange) hmaxRange)
    hminAzimuth) hmaxAzimuth

theorem pixel_of_pixelIndex {k : Int × Int} (hk : tile.Contains k.1 k.2) :
    (tile.x + (pixelIndex tile k : Int) % tile.width,
      tile.y + (pixelIndex tile k : Int) / tile.width) = k := by
  obtain ⟨-, hx, hy⟩ := Rectangle.flatIndex hk
  rw [pixelIndex_cast hk]
  exact Prod.ext hx hy

variable (band cells) in
/-- **The kernel indexes the pixels**, in every order of its operations. -/
theorem exists_launchGetSourceRectangle (s : AtomicOrder) (hgrid : (gridDim tile).Valid)
    {m : IndexArrays T} (hazimuth : m.azimuthIndex.length = pixelCount tile)
    (hrange : m.rangeIndex.length = pixelCount tile)
    (hresult : m.result = sourceRectangleResult ([] : List (T × T))) :
    ∃ m', launchGetSourceRectangle band cells s tile m = some m' ∧ Indexed band cells tile m' := by
  let cellAt (i : Nat) : Option (T × T) :=
    acceptedCell band cells (tile.x + (i : Int) % tile.width) (tile.y + (i : Int) / tile.width)
  let range (i : Nat) : T := ((cellAt i).map Prod.fst).getD 0
  have hcellAt {k : Int × Int} (hk : tile.Contains k.1 k.2) :
      cellAt (pixelIndex tile k) = acceptedCell band cells k.1 k.2 := by
    have hpixel := pixel_of_pixelIndex hk
    exact congrArg₂ (acceptedCell band cells) (congrArg Prod.fst hpixel)
      (congrArg Prod.snd hpixel)
  have hstores : ∀ op ∈ launchOps band cells s tile,
      op.Stores (pixelCount tile) (fun i => (cellAt i).map Prod.snd) range := by
    intro op hop
    obtain ⟨k, hk, hmem⟩ := mem_ops.mp hop
    have hindex := pixelIndex_lt hk
    cases hcell : acceptedCell band cells k.1 k.2 with
    | none =>
      rw [hcell, threadOps, List.mem_singleton] at hmem
      subst hmem
      exact ⟨hindex, by dsimp only; rw [hcellAt hk, hcell]; rfl⟩
    | some p =>
      rw [hcell] at hmem
      simp only [threadOps, List.mem_cons, List.not_mem_nil, or_false] at hmem
      rcases hmem with rfl | rfl | rfl | rfl | rfl | rfl
      · exact ⟨hindex, by dsimp only; rw [hcellAt hk, hcell]; rfl⟩
      · exact ⟨hindex, by dsimp only [range]; rw [hcellAt hk, hcell]; rfl⟩
      all_goals trivial
  obtain ⟨m', hm', hran⟩ := exists_foldlM_run hstores hazimuth hrange
  refine ⟨m', by rw [launchGetSourceRectangle, if_pos hgrid, hm'], ?azimuth, hran.range_length,
    fun k hk p hp => ?range, ?result⟩
  case azimuth =>
    rw [rasterRead_map]
    refine eq_rasterRead hran.azimuth_length fun k hk => ?_
    rw [hran.azimuth (pixelIndex tile k) (.inl (mem_ops.mpr ⟨k, hk, ?_⟩)), hcellAt hk]
    rw [hcellAt hk]
    cases acceptedCell band cells k.1 k.2 <;> simp [threadOps]
  case range =>
    have hvalue : range (pixelIndex tile k) = p.1 := by
      dsimp only [range]
      rw [hcellAt hk, hp]
      rfl
    rw [hran.range (pixelIndex tile k) (.inl (mem_ops.mpr ⟨k, hk, ?_⟩)), hvalue]
    rw [hvalue, hp]
    simp [threadOps]
  case result => rw [hran.result, hresult, foldl_reduce_launchOps]

end Launch

end Kernel

end Alus.TerrainCorrection
