import Mathlib.Data.List.ProdSigma
import Alus.Lib.Kernel
import Alus.Lib.Mirror

/-!
# Padded patches

A patch of an image is put into the middle of a padded patch and its border filled from it, side by
side: left and right in the rows of the patch, then above and below in whole rows, the corners with
them (`patch_assembly.h`, `patch_assembly.cc`). The buffers hold images by rows; a padded patch
begins at an offset and has the stride of the image it is part of.
-/

namespace Alus.FeatureExtractionGabor

open Alus.Lib

/-! ## Parameters -/

structure PaddedPatchParameters where
  paddingTop : Nat
  paddingLeft : Nat
  paddingBottom : Nat
  paddingRight : Nat
  originPatchEdgeSize : Nat
  paddedPatchEdgeSize : Nat
  deriving DecidableEq, Repr

def createPaddedPatchParameters (originPatchEdgeSize filterEdgeSize : Nat) :
    PaddedPatchParameters :=
  let asymmetricalExtraPixel := filterEdgeSize % 2
  let filterHalfEdge := filterEdgeSize / 2
  ⟨filterHalfEdge, filterHalfEdge, filterHalfEdge + asymmetricalExtraPixel,
    filterHalfEdge + asymmetricalExtraPixel, originPatchEdgeSize,
    originPatchEdgeSize + filterEdgeSize⟩

structure StrideFillParameters where
  originLineStride : Nat
  destinationLineStride : Nat

/-! ## The passes -/

/-- `std::reverse_copy`, as the moves that it makes. -/
def reverseCopy (first count destination : Nat) : List (Nat × Nat) :=
  (List.range count).map fun k => (destination + k, first + count - 1 - k)

/-- `std::copy`. -/
def forwardCopy (first count destination : Nat) : List (Nat × Nat) :=
  (List.range count).map fun k => (destination + k, first + k)

section Passes

variable (parameters : PaddedPatchParameters) (stride base : Nat)

def leftMoves : List (Nat × Nat) :=
  (List.range' parameters.paddingTop parameters.originPatchEdgeSize).flatMap fun line =>
    let paddingDataOffset := base + (line * stride + parameters.paddingLeft)
    reverseCopy paddingDataOffset parameters.paddingLeft
      (paddingDataOffset - parameters.paddingLeft)

def rightMoves : List (Nat × Nat) :=
  (List.range' parameters.paddingTop parameters.originPatchEdgeSize).flatMap fun line =>
    let paddingDataOffset :=
      base + (line * stride + parameters.paddingLeft + parameters.originPatchEdgeSize)
    reverseCopy (paddingDataOffset - parameters.paddingRight) parameters.paddingRight
      paddingDataOffset

def topMoves : List (Nat × Nat) :=
  (List.range parameters.paddingTop).flatMap fun line =>
    forwardCopy (base + (2 * parameters.paddingTop - 1 - line) * stride)
      parameters.paddedPatchEdgeSize (base + line * stride)

def bottomMoves : List (Nat × Nat) :=
  let startLine := parameters.paddedPatchEdgeSize - parameters.paddingBottom
  (List.range' startLine (parameters.paddedPatchEdgeSize - startLine)).flatMap fun line =>
    forwardCopy (base + (startLine - (line - startLine) - 1) * stride)
      parameters.paddedPatchEdgeSize (base + line * stride)

end Passes

section Fill

variable {T : Type}

/-- The strided `FillCenterWithOrigin`. -/
def fillCenterStrided (origin : Nat → T) (parameters : PaddedPatchParameters)
    (strides : StrideFillParameters) (base : Nat) (buffer : Nat → T) : Nat → T :=
  (List.range' parameters.paddingTop parameters.originPatchEdgeSize ×ˢ
    List.range parameters.originPatchEdgeSize).foldl (fun buffer k =>
      Function.update buffer
        (base + (k.1 * strides.destinationLineStride + parameters.paddingLeft + k.2))
        (origin ((k.1 - parameters.paddingTop) * strides.originLineStride + k.2))) buffer

def fillPaddingPatch (origin : Nat → T) (parameters : PaddedPatchParameters)
    (strides : StrideFillParameters) (base : Nat) (buffer : Nat → T) : Nat → T :=
  let buffer := fillCenterStrided origin parameters strides base buffer
  let buffer := copyCells (leftMoves parameters strides.destinationLineStride base) buffer
  let buffer := copyCells (rightMoves parameters strides.destinationLineStride base) buffer
  let buffer := copyCells (topMoves parameters strides.destinationLineStride base) buffer
  copyCells (bottomMoves parameters strides.destinationLineStride base) buffer

/-! ## One patch in a buffer of its own -/

def fillCenterWithOrigin (origin : Nat → T) (parameters : PaddedPatchParameters) :
    (Nat → T) → Nat → T :=
  fillCenterStrided origin parameters
    ⟨parameters.originPatchEdgeSize, parameters.paddedPatchEdgeSize⟩ 0

def fillLeftPadding (parameters : PaddedPatchParameters) : (Nat → T) → Nat → T :=
  copyCells (leftMoves parameters parameters.paddedPatchEdgeSize 0)

def fillRightPadding (parameters : PaddedPatchParameters) : (Nat → T) → Nat → T :=
  copyCells (rightMoves parameters parameters.paddedPatchEdgeSize 0)

def fillTopPadding (parameters : PaddedPatchParameters) : (Nat → T) → Nat → T :=
  copyCells (topMoves parameters parameters.paddedPatchEdgeSize 0)

def fillBottomPadding (parameters : PaddedPatchParameters) : (Nat → T) → Nat → T :=
  copyCells (bottomMoves parameters parameters.paddedPatchEdgeSize 0)

def createPatchWithPaddingFilled [Zero T] (inputPatch : Nat → T)
    (parameters : PaddedPatchParameters) : Nat → T :=
  let patch := fillCenterWithOrigin inputPatch parameters fun _ => 0
  fillBottomPadding parameters (fillTopPadding parameters (fillRightPadding parameters
    (fillLeftPadding parameters patch)))

end Fill

/-! ## Rows and columns -/

/-- The index of the element in row `k.1` and column `k.2` of a patch. -/
def cell (base stride : Nat) (k : Nat × Nat) : Nat := base + (k.1 * stride + k.2)

theorem cell_inj {base stride : Nat} {k l : Nat × Nat} (hk : k.2 < stride) (hl : l.2 < stride)
    (h : cell base stride k = cell base stride l) : k = l := by
  obtain ⟨hcolumn, hrow⟩ := row_index_inj hk hl (Nat.add_left_cancel h)
  exact Prod.ext hrow hcolumn

section Moves

variable {p f stride base : Nat}

/-- What the passes copy, for the parameters of a patch edge and a filter edge. -/
theorem leftMoves_eq : leftMoves (createPaddedPatchParameters p f) stride base =
    (List.range' (f / 2) p ×ˢ List.range (f / 2)).map fun k =>
      (cell base stride k, cell base stride (k.1, 2 * (f / 2) - 1 - k.2)) := by
  simp only [leftMoves, createPaddedPatchParameters, reverseCopy, SProd.sprod, List.product,
    List.map_flatMap, List.map_map]
  refine List.flatMap_congr fun line _ => List.map_congr_left fun c hc => ?_
  have hc := List.mem_range.mp hc
  simp only [Function.comp_apply, cell, Prod.mk.injEq]
  omega

theorem rightMoves_eq (hp : 0 < p) : rightMoves (createPaddedPatchParameters p f) stride base =
    (List.range' (f / 2) p ×ˢ List.range' (f / 2 + p) (f / 2 + f % 2)).map fun k =>
      (cell base stride k, cell base stride (k.1, 2 * (f / 2 + p) - 1 - k.2)) := by
  simp only [rightMoves, createPaddedPatchParameters, reverseCopy, SProd.sprod, List.product,
    List.map_flatMap, List.map_map, List.range'_eq_map_range]
  refine List.flatMap_congr fun line _ => List.map_congr_left fun c hc => ?_
  have hc := List.mem_range.mp hc
  simp only [Function.comp_apply, cell, Prod.mk.injEq]
  omega

theorem topMoves_eq : topMoves (createPaddedPatchParameters p f) stride base =
    (List.range (f / 2) ×ˢ List.range (p + f)).map fun k =>
      (cell base stride k, cell base stride (2 * (f / 2) - 1 - k.1, k.2)) := by
  simp only [topMoves, createPaddedPatchParameters, forwardCopy, SProd.sprod, List.product,
    List.map_flatMap, List.map_map]
  refine List.flatMap_congr fun line _ => List.map_congr_left fun c hc => ?_
  simp only [Function.comp_apply, cell, Prod.mk.injEq]
  omega

theorem bottomMoves_eq (hp : 0 < p) : bottomMoves (createPaddedPatchParameters p f) stride base =
    (List.range' (f / 2 + p) (f / 2 + f % 2) ×ˢ List.range (p + f)).map fun k =>
      (cell base stride k, cell base stride (2 * (f / 2 + p) - 1 - k.1, k.2)) := by
  have hstart : p + f - (f / 2 + f % 2) = f / 2 + p := by omega
  have hcount : p + f - (f / 2 + p) = f / 2 + f % 2 := by omega
  simp only [bottomMoves, createPaddedPatchParameters, forwardCopy, SProd.sprod, List.product,
    List.map_flatMap, List.map_map, hstart, hcount]
  refine List.flatMap_congr fun line hline => List.map_congr_left fun c hc => ?_
  have hline := List.mem_range'_1.mp hline
  have hsource : f / 2 + p - (line - (f / 2 + p)) - 1 = 2 * (f / 2 + p) - 1 - line := by omega
  simp only [Function.comp_apply, cell, hsource, Prod.mk.injEq]
  omega

end Moves

section View

variable {T : Type} {stride base : Nat}

/-- Moves between the elements of a patch, of which none reads what another one writes. -/
theorem copyCells_cell {cells : List (Nat × Nat)} {source : Nat × Nat → Nat × Nat}
    (hin : ∀ k ∈ cells, k.2 < stride ∧ (source k).2 < stride)
    (hread : ∀ k ∈ cells, source k ∉ cells) (buffer : Nat → T) {k : Nat × Nat}
    (hk : k.2 < stride) :
    copyCells (cells.map fun k => (cell base stride k, cell base stride (source k))) buffer
        (cell base stride k) =
      buffer (cell base stride (if k ∈ cells then source k else k)) := by
  by_cases hmem : k ∈ cells
  · have hw : (cell base stride k, cell base stride (source k)) ∈
        cells.map fun k => (cell base stride k, cell base stride (source k)) :=
      List.mem_map.mpr ⟨k, hmem, rfl⟩
    rw [if_pos hmem]
    refine copyCells_of_mem ?_ ?_ hw buffer
    · intro v hv w hw heq
      obtain ⟨k', hk', rfl⟩ := List.mem_map.mp hv
      obtain ⟨l, hl, rfl⟩ := List.mem_map.mp hw
      have hsource := cell_inj (hin k' hk').1 (hin l hl).2 heq
      exact hread l hl (hsource ▸ hk')
    · intro v hv w hw heq
      obtain ⟨k', hk', rfl⟩ := List.mem_map.mp hv
      obtain ⟨l, hl, rfl⟩ := List.mem_map.mp hw
      rw [cell_inj (hin k' hk').1 (hin l hl).1 heq]
  · rw [if_neg hmem]
    refine copyCells_kept (fun w hw heq => ?_) buffer
    obtain ⟨l, hl, rfl⟩ := List.mem_map.mp hw
    exact hmem (cell_inj (hin l hl).1 hk heq ▸ hl)

theorem foldl_fill {cells : List (Nat × Nat)} (hin : ∀ k ∈ cells, k.2 < stride)
    (value : Nat × Nat → T) (buffer : Nat → T) :
    (∀ k, k.2 < stride →
      cells.foldl (fun b k => Function.update b (cell base stride k) (value k)) buffer
        (cell base stride k) = if k ∈ cells then value k else buffer (cell base stride k)) ∧
    ∀ index, (∀ k ∈ cells, cell base stride k ≠ index) →
      cells.foldl (fun b k => Function.update b (cell base stride k) (value k)) buffer index =
        buffer index := by
  induction cells generalizing buffer with
  | nil =>
    refine ⟨fun k _ => ?_, fun _ _ => rfl⟩
    rw [if_neg List.not_mem_nil]
    rfl
  | cons l cells ih =>
    obtain ⟨hvalues, hkept⟩ := ih (fun k hk => hin k (List.mem_cons_of_mem l hk))
      (Function.update buffer (cell base stride l) (value l))
    refine ⟨fun k hk => ?_, fun index hindex => ?_⟩
    · rw [List.foldl_cons, hvalues k hk]
      by_cases hmem : k ∈ cells
      · rw [if_pos hmem, if_pos (List.mem_cons_of_mem l hmem)]
      · rw [if_neg hmem]
        by_cases heq : k = l
        · rw [heq, if_pos List.mem_cons_self, Function.update_self]
        · rw [if_neg (fun h => (List.mem_cons.mp h).elim heq hmem), Function.update_of_ne]
          exact fun h => heq (cell_inj hk (hin l List.mem_cons_self) h)
    · rw [List.foldl_cons, hkept index fun k hk => hindex k (List.mem_cons_of_mem l hk)]
      exact Function.update_of_ne (hindex l List.mem_cons_self).symm _ _

end View

/-! ## What the passes leave -/

section Passes

variable {T : Type} {p f stride base : Nat}

/-- The buffer holds the elements of the padded patch. -/
def Holds (p f stride base : Nat) (buffer : Nat → T) (element : Nat → Nat → T) : Prop :=
  ∀ r < p + f, ∀ c < p + f, buffer (cell base stride (r, c)) = element r c

theorem fillCenterStrided_eq (origin : Nat → T) (originStride : Nat) (buffer : Nat → T) :
    fillCenterStrided origin (createPaddedPatchParameters p f) ⟨originStride, stride⟩ base buffer =
      (List.range' (f / 2) p ×ˢ List.range' (f / 2) p).foldl (fun b k =>
        Function.update b (cell base stride k)
          (origin ((k.1 - f / 2) * originStride + (k.2 - f / 2)))) buffer := by
  have hcells : (List.range' (f / 2) p ×ˢ List.range' (f / 2) p) =
      (List.range' (f / 2) p ×ˢ List.range p).map fun k => (k.1, f / 2 + k.2) := by
    simp only [SProd.sprod, List.product, List.map_flatMap, List.map_map,
      List.range'_eq_map_range, Function.comp_def]
  rw [hcells, List.foldl_map]
  simp only [fillCenterStrided, createPaddedPatchParameters, cell, Nat.add_sub_cancel_left,
    Nat.add_assoc]

theorem holds_fillCenter [Zero T] (hstride : p + f ≤ stride) (origin : Nat → T)
    (originStride : Nat) {buffer : Nat → T} (hzero : Holds p f stride base buffer fun _ _ => 0) :
    Holds p f stride base
      (fillCenterStrided origin (createPaddedPatchParameters p f) ⟨originStride, stride⟩ base
        buffer)
      (centred (f / 2) p (fun i => centred (f / 2) p (fun j => origin (i * originStride + j)) 0)
        fun _ => 0) := by
  intro r hr c hc
  have hin : ∀ k ∈ List.range' (f / 2) p ×ˢ List.range' (f / 2) p, k.2 < stride := by
    intro k hk
    have hcolumn := List.mem_range'_1.mp (List.mem_product.mp hk).2
    omega
  have hmem : (r, c) ∈ List.range' (f / 2) p ×ˢ List.range' (f / 2) p ↔
      (f / 2 ≤ r ∧ r < f / 2 + p) ∧ f / 2 ≤ c ∧ c < f / 2 + p := by
    rw [List.mem_product, List.mem_range'_1, List.mem_range'_1]
  rw [fillCenterStrided_eq, (foldl_fill hin _ buffer).1 (r, c) (by omega), hzero r hr c hc]
  simp only [hmem, centred]
  by_cases hrow : f / 2 ≤ r ∧ r < f / 2 + p
  · simp only [hrow, true_and, and_self, if_true]
    rfl
  · simp only [hrow, false_and, if_false]

/-- A pass fills a side of the rows of the patch. -/
theorem holds_leftMoves [Zero T] (hstride : p + f ≤ stride) {line : Nat → Nat → T}
    {buffer : Nat → T}
    (h : Holds p f stride base buffer (centred (f / 2) p line fun _ => 0)) :
    Holds p f stride base
      (copyCells (leftMoves (createPaddedPatchParameters p f) stride base) buffer)
      (centred (f / 2) p (fun i => fillBefore (f / 2) (line i)) fun _ => 0) := by
  intro r hr c hc
  have hmem : ∀ k : Nat × Nat, k ∈ List.range' (f / 2) p ×ˢ List.range (f / 2) ↔
      (f / 2 ≤ k.1 ∧ k.1 < f / 2 + p) ∧ k.2 < f / 2 := fun k => by
    rw [List.mem_product, List.mem_range'_1, List.mem_range]
  rw [leftMoves_eq, copyCells_cell _ _ buffer (show (r, c).2 < stride by show c < stride; omega)]
  · by_cases hside : (f / 2 ≤ r ∧ r < f / 2 + p) ∧ c < f / 2
    · rw [if_pos ((hmem (r, c)).mpr hside), h r hr _ (by omega)]
      simp only [centred, fillBefore, if_pos hside.1, if_pos hside.2]
    · rw [if_neg (fun hk => hside ((hmem (r, c)).mp hk)), h r hr c hc]
      simp only [centred]
      by_cases hrow : f / 2 ≤ r ∧ r < f / 2 + p
      · rw [if_pos hrow, if_pos hrow, fillBefore, if_neg (fun hlt => hside ⟨hrow, hlt⟩)]
      · rw [if_neg hrow, if_neg hrow]
  · intro k hk
    have hk := (hmem k).mp hk
    exact ⟨by omega, by show 2 * (f / 2) - 1 - k.2 < stride; omega⟩
  · intro k hk hsource
    have hk := (hmem k).mp hk
    have hsource := ((hmem _).mp hsource).2
    simp only at hsource
    omega

theorem holds_rightMoves [Zero T] (hp : 0 < p) (hstride : p + f ≤ stride) {line : Nat → Nat → T}
    {buffer : Nat → T}
    (h : Holds p f stride base buffer (centred (f / 2) p line fun _ => 0)) :
    Holds p f stride base
      (copyCells (rightMoves (createPaddedPatchParameters p f) stride base) buffer)
      (centred (f / 2) p (fun i => fillAfter (f / 2 + p) (line i)) fun _ => 0) := by
  intro r hr c hc
  have hmem : ∀ k : Nat × Nat,
      k ∈ List.range' (f / 2) p ×ˢ List.range' (f / 2 + p) (f / 2 + f % 2) ↔
        (f / 2 ≤ k.1 ∧ k.1 < f / 2 + p) ∧ f / 2 + p ≤ k.2 ∧ k.2 < p + f := fun k => by
    rw [List.mem_product, List.mem_range'_1, List.mem_range'_1]
    omega
  rw [rightMoves_eq hp,
    copyCells_cell _ _ buffer (show (r, c).2 < stride by show c < stride; omega)]
  · by_cases hside : (f / 2 ≤ r ∧ r < f / 2 + p) ∧ f / 2 + p ≤ c ∧ c < p + f
    · rw [if_pos ((hmem (r, c)).mpr hside), h r hr _ (by omega)]
      simp only [centred, fillAfter, if_pos hside.1, if_pos hside.2.1]
    · rw [if_neg (fun hk => hside ((hmem (r, c)).mp hk)), h r hr c hc]
      simp only [centred]
      by_cases hrow : f / 2 ≤ r ∧ r < f / 2 + p
      · rw [if_pos hrow, if_pos hrow, fillAfter, if_neg (fun hle => hside ⟨hrow, hle, hc⟩)]
      · rw [if_neg hrow, if_neg hrow]
  · intro k hk
    have hk := (hmem k).mp hk
    exact ⟨by omega, by show 2 * (f / 2 + p) - 1 - k.2 < stride; omega⟩
  · intro k hk hsource
    have hk := (hmem k).mp hk
    have hsource := ((hmem _).mp hsource).2
    simp only at hsource
    omega

/-- A pass fills whole rows above or below. -/
theorem holds_topMoves (hstride : p + f ≤ stride) {line : Nat → Nat → T} {buffer : Nat → T}
    (h : Holds p f stride base buffer line) :
    Holds p f stride base
      (copyCells (topMoves (createPaddedPatchParameters p f) stride base) buffer)
      (fillBefore (f / 2) line) := by
  intro r hr c hc
  have hmem : ∀ k : Nat × Nat, k ∈ List.range (f / 2) ×ˢ List.range (p + f) ↔
      k.1 < f / 2 ∧ k.2 < p + f := fun k => by
    rw [List.mem_product, List.mem_range, List.mem_range]
  rw [topMoves_eq, copyCells_cell _ _ buffer (show (r, c).2 < stride by show c < stride; omega)]
  · by_cases hside : r < f / 2
    · rw [if_pos ((hmem (r, c)).mpr ⟨hside, hc⟩), h _ (by omega) c hc, fillBefore, if_pos hside]
    · rw [if_neg (fun hk => hside ((hmem (r, c)).mp hk).1), h r hr c hc, fillBefore,
        if_neg hside]
  · intro k hk
    have hk := (hmem k).mp hk
    exact ⟨by omega, by show k.2 < stride; omega⟩
  · intro k hk hsource
    have hk := (hmem k).mp hk
    have hsource := ((hmem _).mp hsource).1
    simp only at hsource
    omega

theorem holds_bottomMoves (hp : 0 < p) (hstride : p + f ≤ stride) {line : Nat → Nat → T}
    {buffer : Nat → T} (h : Holds p f stride base buffer line) :
    Holds p f stride base
      (copyCells (bottomMoves (createPaddedPatchParameters p f) stride base) buffer)
      (fillAfter (f / 2 + p) line) := by
  intro r hr c hc
  have hmem : ∀ k : Nat × Nat,
      k ∈ List.range' (f / 2 + p) (f / 2 + f % 2) ×ˢ List.range (p + f) ↔
        (f / 2 + p ≤ k.1 ∧ k.1 < p + f) ∧ k.2 < p + f := fun k => by
    rw [List.mem_product, List.mem_range'_1, List.mem_range]
    omega
  rw [bottomMoves_eq hp,
    copyCells_cell _ _ buffer (show (r, c).2 < stride by show c < stride; omega)]
  · by_cases hside : f / 2 + p ≤ r
    · rw [if_pos ((hmem (r, c)).mpr ⟨⟨hside, hr⟩, hc⟩), h _ (by omega) c hc, fillAfter,
        if_pos hside]
    · rw [if_neg (fun hk => hside ((hmem (r, c)).mp hk).1.1), h r hr c hc, fillAfter,
        if_neg hside]
  · intro k hk
    have hk := (hmem k).mp hk
    exact ⟨by omega, by show k.2 < stride; omega⟩
  · intro k hk hsource
    have hk := (hmem k).mp hk
    have hsource := ((hmem _).mp hsource).1
    simp only at hsource
    omega

/-- The position is at most one patch before the patch, or two behind it. -/
def Reached (p f i : Nat) : Prop :=
  -(p : Int) ≤ (i : Int) - (f / 2 : Nat) ∧ (i : Int) - (f / 2 : Nat) < 3 * p

instance (p f i : Nat) : Decidable (Reached p f i) := inferInstanceAs (Decidable (_ ∧ _))

/-- What the passes leave in a buffer of zeros: the reflected patch as far as it was there to be
copied, and zeros beyond. -/
def paddedElement [Zero T] (p f : Nat) (patch : Nat → Nat → T) (r c : Nat) : T :=
  if Reached p f r ∧ Reached p f c then
    patch (reflect p ((r : Int) - (f / 2 : Nat))) (reflect p ((c : Int) - (f / 2 : Nat)))
  else 0

theorem holds_fillPaddingPatch [Zero T] (hp : 0 < p) (hstride : p + f ≤ stride)
    (origin : Nat → T) (originStride : Nat) {buffer : Nat → T}
    (hzero : Holds p f stride base buffer fun _ _ => 0) :
    Holds p f stride base
      (fillPaddingPatch origin (createPaddedPatchParameters p f) ⟨originStride, stride⟩ base buffer)
      (paddedElement p f fun i j => origin (i * originStride + j)) := by
  have hrows := holds_rightMoves hp hstride (holds_leftMoves hstride
    (holds_fillCenter hstride origin originStride hzero))
  have hall := holds_bottomMoves hp hstride (holds_topMoves hstride hrows)
  intro r hr c hc
  refine (hall r hr c hc).trans ?_
  rw [fillAfter_fillBefore hp _ _ (by omega), paddedElement]
  by_cases hrow : Reached p f r
  · rw [if_pos (show _ ∧ _ from hrow), fillAfter_fillBefore hp _ _ (by omega)]
    refine if_congr ?_ rfl rfl
    exact (and_iff_right hrow).symm
  · rw [if_neg (show ¬(_ ∧ _) from hrow), if_neg (fun hboth => hrow hboth.1)]

theorem reflect_of_not_reached {r : Nat} (hr : r < p + f) (h : ¬ Reached p f r) :
    2 * p ≤ reflect p ((r : Int) - (f / 2 : Nat)) + f / 2 := by
  by_cases hlong : 2 * p ≤ f / 2
  · omega
  -- the border before the patch is the only one that is not reached
  · have hbefore : (r : Int) - (f / 2 : Nat) < -(p : Int) := by
      by_contra hle
      exact h ⟨by omega, by omega⟩
    rw [← reflect_add_period, reflect_of_mem (by omega) (by omega)]
    omega

theorem exists_not_reached {i : Nat} (hi : i < p) (h : 2 * p ≤ i + f / 2) :
    ∃ r < p + f, ¬ Reached p f r ∧ reflect p ((r : Int) - (f / 2 : Nat)) = i := by
  refine ⟨i + f / 2 - 2 * p, by omega, fun hreached => ?_, ?_⟩
  · have hlow := hreached.1
    omega
  · rw [← reflect_add_period, reflect_of_mem (by omega) (by omega)]
    omega

theorem exists_reflect {j : Nat} (hj : j < p) :
    ∃ c < p + f, reflect p ((c : Int) - (f / 2 : Nat)) = j := by
  refine ⟨j + f / 2, by omega, ?_⟩
  rw [reflect_of_mem (by omega) (by omega)]
  omega

/-- The patch is reflected in full exactly when what was not reached is zero. -/
theorem paddedElement_eq_iff [Zero T] (hp : 0 < p) (patch : Nat → Nat → T) :
    (∀ r < p + f, ∀ c < p + f, paddedElement p f patch r c =
      patch (reflect p ((r : Int) - (f / 2 : Nat))) (reflect p ((c : Int) - (f / 2 : Nat)))) ↔
    ∀ i < p, ∀ j < p, 2 * p ≤ i + f / 2 ∨ 2 * p ≤ j + f / 2 → patch i j = 0 := by
  constructor
  · intro h i hi j hj hfar
    rcases hfar with hfar | hfar
    · obtain ⟨r, hr, hnot, hi'⟩ := exists_not_reached hi hfar
      obtain ⟨c, hc, hj'⟩ := exists_reflect (f := f) hj
      have helement := h r hr c hc
      rw [hi', hj', paddedElement, if_neg fun hboth => hnot hboth.1] at helement
      exact helement.symm
    · obtain ⟨r, hr, hi'⟩ := exists_reflect (f := f) hi
      obtain ⟨c, hc, hnot, hj'⟩ := exists_not_reached hj hfar
      have helement := h r hr c hc
      rw [hi', hj', paddedElement, if_neg fun hboth => hnot hboth.2] at helement
      exact helement.symm
  · intro h r hr c hc
    by_cases hboth : Reached p f r ∧ Reached p f c
    · rw [paddedElement, if_pos hboth]
    · have hfar : 2 * p ≤ reflect p ((r : Int) - (f / 2 : Nat)) + f / 2 ∨
          2 * p ≤ reflect p ((c : Int) - (f / 2 : Nat)) + f / 2 := by
        rcases not_and_or.mp hboth with hrow | hcolumn
        · exact Or.inl (reflect_of_not_reached hr hrow)
        · exact Or.inr (reflect_of_not_reached hc hcolumn)
      rw [paddedElement, if_neg hboth, h _ (reflect_lt hp _) _ (reflect_lt hp _) hfar]

/-! ## Inside the padded patch -/

/-- The index is that of an element of the padded patch. -/
def InPatch (edge stride base index : Nat) : Prop :=
  ∃ r < edge, ∃ c < edge, cell base stride (r, c) = index

/-- The moves of the four passes, in order. -/
def passes (parameters : PaddedPatchParameters) (stride base : Nat) : List (Nat × Nat) :=
  leftMoves parameters stride base ++ rightMoves parameters stride base ++
    topMoves parameters stride base ++ bottomMoves parameters stride base

theorem fillPaddingPatch_eq (origin : Nat → T) (parameters : PaddedPatchParameters)
    (strides : StrideFillParameters) (buffer : Nat → T) :
    fillPaddingPatch origin parameters strides base buffer =
      copyCells (passes parameters strides.destinationLineStride base)
        (fillCenterStrided origin parameters strides base buffer) := by
  simp only [fillPaddingPatch, passes, copyCells, List.foldl_append]

theorem passes_inside (hp : 0 < p) {move : Nat × Nat}
    (h : move ∈ passes (createPaddedPatchParameters p f) stride base) :
    InPatch (p + f) stride base move.1 ∧ InPatch (p + f) stride base move.2 := by
  rw [passes, leftMoves_eq, rightMoves_eq hp, topMoves_eq, bottomMoves_eq hp] at h
  rcases List.mem_append.mp h with h | hbottom
  · rcases List.mem_append.mp h with h | htop
    · rcases List.mem_append.mp h with hleft | hright
      · obtain ⟨⟨r, c⟩, hk, rfl⟩ := List.mem_map.mp hleft
        have hr := List.mem_range'_1.mp (List.mem_product.mp hk).1
        have hc := List.mem_range.mp (List.mem_product.mp hk).2
        exact ⟨⟨r, by omega, c, by omega, rfl⟩, r, by omega, _, by omega, rfl⟩
      · obtain ⟨⟨r, c⟩, hk, rfl⟩ := List.mem_map.mp hright
        have hr := List.mem_range'_1.mp (List.mem_product.mp hk).1
        have hc := List.mem_range'_1.mp (List.mem_product.mp hk).2
        exact ⟨⟨r, by omega, c, by omega, rfl⟩, r, by omega, _, by omega, rfl⟩
    · obtain ⟨⟨r, c⟩, hk, rfl⟩ := List.mem_map.mp htop
      have hr := List.mem_range.mp (List.mem_product.mp hk).1
      have hc := List.mem_range.mp (List.mem_product.mp hk).2
      exact ⟨⟨r, by omega, c, hc, rfl⟩, _, by omega, c, hc, rfl⟩
  · obtain ⟨⟨r, c⟩, hk, rfl⟩ := List.mem_map.mp hbottom
    have hr := List.mem_range'_1.mp (List.mem_product.mp hk).1
    have hc := List.mem_range.mp (List.mem_product.mp hk).2
    exact ⟨⟨r, by omega, c, hc, rfl⟩, _, by omega, c, hc, rfl⟩

/-- The frame of a patch: no other element of the buffer changes. -/
theorem fillPaddingPatch_kept (hp : 0 < p) (hstride : p + f ≤ stride) (origin : Nat → T)
    (originStride : Nat) (buffer : Nat → T) {index : Nat}
    (h : ¬ InPatch (p + f) stride base index) :
    fillPaddingPatch origin (createPaddedPatchParameters p f) ⟨originStride, stride⟩ base buffer
      index = buffer index := by
  rw [fillPaddingPatch_eq, copyCells_kept, fillCenterStrided_eq]
  · refine (foldl_fill ?_ _ buffer).2 index ?_
    · intro k hk
      have hcolumn := List.mem_range'_1.mp (List.mem_product.mp hk).2
      omega
    · intro k hk heq
      have hrow := List.mem_range'_1.mp (List.mem_product.mp hk).1
      have hcolumn := List.mem_range'_1.mp (List.mem_product.mp hk).2
      exact h ⟨k.1, by omega, k.2, by omega, heq⟩
  · intro move hmove heq
    exact h (heq ▸ (passes_inside hp hmove).1)

/-- The patch in a buffer of its own. -/
theorem createPatchWithPaddingFilled_apply [Zero T] (hp : 0 < p) (inputPatch : Nat → T) {r c : Nat}
    (hr : r < p + f) (hc : c < p + f) :
    createPatchWithPaddingFilled inputPatch (createPaddedPatchParameters p f) (r * (p + f) + c) =
      paddedElement p f (fun i j => inputPatch (i * p + j)) r c := by
  have hholds : Holds p f (p + f) 0
      (createPatchWithPaddingFilled inputPatch (createPaddedPatchParameters p f))
      (paddedElement p f fun i j => inputPatch (i * p + j)) :=
    holds_fillPaddingPatch hp (Nat.le_refl (p + f)) inputPatch p fun _ _ _ _ => rfl
  have helement := hholds r hr c hc
  rw [cell, Nat.zero_add] at helement
  exact helement

end Passes

end Alus.FeatureExtractionGabor
