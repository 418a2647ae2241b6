import Alus.Lib.Machine
import Alus.FeatureExtractionGabor.PatchAssembly

/-!
# The padded patches of an image

For every band and every edge of a filter the whole patches of the image are laid out, each with
its padding, in a buffer of their own (`patched_image.cc`). The dimensions of the padded image and
the number of its elements are `int`s; a vector cannot have a negative number of elements.
-/

namespace Alus.FeatureExtractionGabor

open Alus.Lib

/-! ## Dimensions -/

structure RasterDimension where
  columnsX : Int
  rowsY : Int
  deriving DecidableEq, Repr

/-- `static_cast<int>` of a size. -/
def castInt (n : Nat) : Int := Int.bmod n 4294967296

/-- `static_cast<size_t>` of an `int`. -/
def castSize (z : Int) : Nat := (z % 18446744073709551616).toNat

def getPaddedPatchEdgeSize (patchEdgeSize filterBorderEdgeSize : Nat) : Nat :=
  patchEdgeSize + filterBorderEdgeSize

def getPatchCountFor (dim patchSideSize : Nat) : Nat := dim / patchSideSize

def getPaddedPatchImageDimension (patchEdgeSize sourceColumns sourceRows filterEdgeSize : Nat) :
    RasterDimension :=
  let ppes := getPaddedPatchEdgeSize patchEdgeSize filterEdgeSize
  let pcx := getPatchCountFor sourceColumns patchEdgeSize
  let pcy := getPatchCountFor sourceRows patchEdgeSize
  ⟨castInt (pcx * ppes), castInt (pcy * ppes)⟩

/-! ## The patched images -/

/-- The raster that the patches are taken from. -/
structure Dataset (T : Type) where
  rasterSizeX : Nat
  rasterSizeY : Nat
  bandCount : Nat
  hostDataBuffer : Nat → Nat → T

structure Item (T : Type) where
  padding : PaddedPatchParameters
  width : Nat
  height : Nat
  filterEdgeSize : Nat
  bufferSize : Nat
  buffer : Nat → T

def inOffset (patchEdge inXSize : Nat) (patch : Nat × Nat) : Nat :=
  patch.2 * patchEdge * inXSize + patch.1 * patchEdge

def outOffset (patchCountX paddedEdge : Nat) (patch : Nat × Nat) : Nat :=
  patch.2 * (patchCountX * paddedEdge * paddedEdge) + patch.1 * paddedEdge

section Create

variable {T : Type} [Zero T]

/-- The loops over the patches. -/
def fillPatches (pixels : Nat → T) (padding : PaddedPatchParameters)
    (strides : StrideFillParameters) (patchCountX : Nat) (patches : List (Nat × Nat))
    (buffer : Nat → T) : Nat → T :=
  patches.foldl (fun buffer patch =>
    fillPaddingPatch
      (fun i => pixels (inOffset padding.originPatchEdgeSize strides.originLineStride patch + i))
      padding strides (outOffset patchCountX padding.paddedPatchEdgeSize patch) buffer) buffer

/-- The item that is pushed back, with what the loops write to its buffer. -/
def filledItem (dataset : Dataset T) (patchEdgeSize band filterEdgeSize : Nat)
    (dimension : RasterDimension) : Item T :=
  let padding := createPaddedPatchParameters patchEdgeSize filterEdgeSize
  let patchCountX := getPatchCountFor (castSize dimension.columnsX) padding.paddedPatchEdgeSize
  let patchCountY := getPatchCountFor (castSize dimension.rowsY) padding.paddedPatchEdgeSize
  { padding := padding
    width := castSize dimension.columnsX
    height := castSize dimension.rowsY
    filterEdgeSize := filterEdgeSize
    bufferSize := (dimension.columnsX * dimension.rowsY).toNat
    buffer := fillPatches (dataset.hostDataBuffer band) padding
      ⟨dataset.rasterSizeX, castSize dimension.columnsX⟩ patchCountX
      (List.range patchCountX ×ˢ List.range patchCountY) fun _ => 0 }

/-- The image of a band for one filter edge. -/
def createPatchedImage (dataset : Dataset T) (patchEdgeSize band filterEdgeSize : Nat) :
    Outcome (Item T) := do
  let dimension := getPaddedPatchImageDimension patchEdgeSize dataset.rasterSizeX
    dataset.rasterSizeY filterEdgeSize
  let elements ← int32 (dimension.columnsX * dimension.rowsY)
  -- a negative number is, as a size, more than a vector can hold
  Outcome.require (0 ≤ elements)
  return filledItem dataset patchEdgeSize band filterEdgeSize dimension

/-- `patched_images_`, the items of each band. -/
abbrev PatchedImages (T : Type) := Nat → List (Item T)

omit [Zero T] in
/-- The loops over the bands and the filter edges, up to the first image that is not made. -/
def createPatchedImages (create : Nat → Nat → Outcome (Item T)) :
    List (Nat × Nat) → PatchedImages T → PatchedImages T × Outcome Unit
  | [], images => (images, .ok ())
  | pair :: pairs, images =>
    match create pair.1 pair.2 with
    | .ok item =>
      createPatchedImages create pairs
        (Function.update images pair.1 (images pair.1 ++ [item]))
    | .throws => (images, .throws)
    | .undefined => (images, .undefined)

def createPatchedImagesFor (dataset : Dataset T) (filterEdgeSizes : List Nat)
    (patchEdgeSize : Nat) (images : PatchedImages T) : PatchedImages T × Outcome Unit :=
  -- the aggregate dimension is divided by the edge as an `int`
  if castInt patchEdgeSize = 0 then (images, .undefined)
  else createPatchedImages (createPatchedImage dataset patchEdgeSize)
    (List.range dataset.bandCount ×ˢ filterEdgeSizes) images

end Create

/-! ## The patches of a buffer -/

section Patches

variable {T : Type} {p f columns : Nat}

theorem cell_outOffset (columns edge : Nat) (patch k : Nat × Nat) :
    cell (outOffset columns edge patch) (columns * edge) k =
      (patch.2 * edge + k.1) * (columns * edge) + (patch.1 * edge + k.2) := by
  simp only [cell, outOffset]
  ring

/-- Padded patches have no element in common. -/
theorem inPatch_unique {edge index : Nat} {k l : Nat × Nat} (hk : k.1 < columns)
    (hl : l.1 < columns) (hink : InPatch edge (columns * edge) (outOffset columns edge k) index)
    (hinl : InPatch edge (columns * edge) (outOffset columns edge l) index) : k = l := by
  obtain ⟨r, hr, c, hc, hindex⟩ := hink
  obtain ⟨r', hr', c', hc', hindex'⟩ := hinl
  have hwithin : ∀ {m c : Nat}, m < columns → c < edge → m * edge + c < columns * edge :=
    fun hm hc => (row_index_lt hc hm).trans_eq (Nat.mul_comm _ _)
  have heq := hindex.trans hindex'.symm
  rw [cell_outOffset, cell_outOffset] at heq
  obtain ⟨hcolumn, hrow⟩ := row_index_inj (hwithin hk hc) (hwithin hl hc') heq
  exact Prod.ext (row_index_inj hc hc' hcolumn).2 (row_index_inj hr hr' hrow).2

/-- Each patch of the list is padded, in a buffer that was zero there, and nothing else changes. -/
theorem fillPatches_spec [Zero T] (hp : 0 < p) (pixels : Nat → T) (inXSize : Nat)
    {patches : List (Nat × Nat)} (hnodup : patches.Nodup) (hcolumns : ∀ k ∈ patches, k.1 < columns)
    (buffer : Nat → T)
    (hzero : ∀ k ∈ patches, Holds p f (columns * (p + f)) (outOffset columns (p + f) k) buffer
      fun _ _ => 0) :
    (∀ k ∈ patches, Holds p f (columns * (p + f)) (outOffset columns (p + f) k)
      (fillPatches pixels (createPaddedPatchParameters p f) ⟨inXSize, columns * (p + f)⟩ columns
        patches buffer)
      (paddedElement p f fun i j => pixels (inOffset p inXSize k + (i * inXSize + j)))) ∧
    ∀ index, (∀ k ∈ patches,
        ¬ InPatch (p + f) (columns * (p + f)) (outOffset columns (p + f) k) index) →
      fillPatches pixels (createPaddedPatchParameters p f) ⟨inXSize, columns * (p + f)⟩ columns
        patches buffer index = buffer index := by
  induction patches generalizing buffer with
  | nil => exact ⟨nofun, fun _ _ => rfl⟩
  | cons k patches ih =>
    obtain ⟨hnotin, hnodup⟩ := List.nodup_cons.mp hnodup
    have hk : k.1 < columns := hcolumns k List.mem_cons_self
    have hstride : p + f ≤ columns * (p + f) := Nat.le_mul_of_pos_left _ (by omega)
    have hcolumns' : ∀ l ∈ patches, l.1 < columns := fun l hl =>
      hcolumns l (List.mem_cons_of_mem k hl)
    have hapart : ∀ l ∈ patches, ∀ index,
        InPatch (p + f) (columns * (p + f)) (outOffset columns (p + f) l) index →
        ¬ InPatch (p + f) (columns * (p + f)) (outOffset columns (p + f) k) index := by
      intro l hl index hinl hink
      exact hnotin (inPatch_unique hk (hcolumns' l hl) hink hinl ▸ hl)
    have hfilled := holds_fillPaddingPatch hp hstride
      (fun i => pixels (inOffset p inXSize k + i)) inXSize (hzero k List.mem_cons_self)
    have hkept : ∀ index,
        ¬ InPatch (p + f) (columns * (p + f)) (outOffset columns (p + f) k) index →
        fillPaddingPatch (fun i => pixels (inOffset p inXSize k + i))
          (createPaddedPatchParameters p f) ⟨inXSize, columns * (p + f)⟩
          (outOffset columns (p + f) k) buffer index = buffer index := fun index hout =>
      fillPaddingPatch_kept hp hstride _ inXSize buffer hout
    obtain ⟨hpadded, hframe⟩ := ih hnodup hcolumns' _ fun l hl r hr c hc =>
      (hkept _ (hapart l hl _ ⟨r, hr, c, hc, rfl⟩)).trans
        (hzero l (List.mem_cons_of_mem k hl) r hr c hc)
    refine ⟨fun l hl => ?_, fun index hout => ?_⟩
    · rcases List.mem_cons.mp hl with rfl | hl
      -- the later patches leave this one alone
      · intro r hr c hc
        refine (hframe _ fun l' hl' hin => ?_).trans (hfilled r hr c hc)
        exact hapart l' hl' _ hin ⟨r, hr, c, hc, rfl⟩
      · exact hpadded l hl
    · exact (hframe index fun l hl => hout l (List.mem_cons_of_mem k hl)).trans
        (hkept index (hout k List.mem_cons_self))

end Patches

/-! ## Padded by reflection -/

section Padded

variable {T : Type} [Zero T] {dataset : Dataset T} {p band f : Nat}

/-- The patch lies in the image. -/
def WholePatch (dataset : Dataset T) (p : Nat) (k : Nat × Nat) : Prop :=
  (k.1 + 1) * p ≤ dataset.rasterSizeX ∧ (k.2 + 1) * p ≤ dataset.rasterSizeY

/-- The pixel in row `i` and column `j` of a patch. -/
def sourceElement (dataset : Dataset T) (p band : Nat) (k : Nat × Nat) (i j : Nat) : T :=
  dataset.hostDataBuffer band ((k.2 * p + i) * dataset.rasterSizeX + (k.1 * p + j))

/-- The index of row `r` and column `c` of a padded patch. -/
def paddedIndex (width edge : Nat) (k : Nat × Nat) (r c : Nat) : Nat :=
  (k.2 * edge + r) * width + (k.1 * edge + c)

/-- The index is that of an element of the padded patch `k`. -/
def InPaddedPatch (width edge : Nat) (k : Nat × Nat) (index : Nat) : Prop :=
  ∃ r < edge, ∃ c < edge, paddedIndex width edge k r c = index

/-- What is made for the whole patches of the image. -/
structure PatchesPadded (dataset : Dataset T) (p band f : Nat) (item : Item T) : Prop where
  filterEdgeSize : item.filterEdgeSize = f
  stored : item.width * item.height = item.bufferSize
  /-- There is room for a padded patch for each of them. -/
  room : ∀ k, WholePatch dataset p k →
    (k.1 + 1) * (p + f) ≤ item.width ∧ (k.2 + 1) * (p + f) ≤ item.height
  reflected : ∀ k, WholePatch dataset p k → ∀ r < p + f, ∀ c < p + f,
    item.buffer (paddedIndex item.width (p + f) k r c) =
      sourceElement dataset p band k (reflect p ((r : Int) - (f / 2 : Nat)))
        (reflect p ((c : Int) - (f / 2 : Nat)))
  /-- The patch is written into the padded patch. -/
  centre : ∀ k, WholePatch dataset p k → ∀ line, item.padding.paddingTop ≤ line →
    line < p + item.padding.paddingTop → ∀ pi < p,
    InPaddedPatch item.width (p + f) k
      (outOffset (getPatchCountFor item.width (p + f)) (p + f) k +
        (line * item.width + item.padding.paddingLeft + pi))
  /-- The passes read and write in the padded patch. -/
  inside : ∀ k, WholePatch dataset p k → ∀ move ∈ passes item.padding item.width
      (outOffset (getPatchCountFor item.width (p + f)) (p + f) k),
    InPaddedPatch item.width (p + f) k move.1 ∧ InPaddedPatch item.width (p + f) k move.2
  /-- Different padded patches do not overlap. -/
  apart : ∀ k l, WholePatch dataset p k → WholePatch dataset p l → ∀ index,
    InPaddedPatch item.width (p + f) k index → InPaddedPatch item.width (p + f) l index → k = l
  /-- The patch by itself is padded to the same. -/
  unstrided : ∀ k, WholePatch dataset p k → ∀ inputPatch : Nat → T,
    (∀ i < p, ∀ j < p, inputPatch (i * p + j) = sourceElement dataset p band k i j) →
    ∀ r < p + f, ∀ c < p + f,
      createPatchWithPaddingFilled inputPatch (createPaddedPatchParameters p f)
        (r * (p + f) + c) = item.buffer (paddedIndex item.width (p + f) k r c)

/-- The number of elements as the code computes it. -/
def elementCount (dataset : Dataset T) (p f : Nat) : Int :=
  (getPaddedPatchImageDimension p dataset.rasterSizeX dataset.rasterSizeY f).columnsX *
    (getPaddedPatchImageDimension p dataset.rasterSizeX dataset.rasterSizeY f).rowsY

/-- The number of elements comes out negative. -/
def Rejected (dataset : Dataset T) (p f : Nat) : Prop :=
  Fits 32 (elementCount dataset p f) ∧ elementCount dataset p f < 0

instance (dataset : Dataset T) (p f : Nat) : Decidable (Rejected dataset p f) :=
  inferInstanceAs (Decidable (_ ∧ _))

/-- The number of elements is an `int`, and what the passes do not reach is zero. -/
def PaddingReached (dataset : Dataset T) (p band f : Nat) : Prop :=
  dataset.rasterSizeX / p * (p + f) * (dataset.rasterSizeY / p * (p + f)) < 2147483648 ∧
  ∀ k, WholePatch dataset p k → ∀ i < p, ∀ j < p,
    2 * p ≤ i + f / 2 ∨ 2 * p ≤ j + f / 2 → sourceElement dataset p band k i j = 0

omit [Zero T] in
theorem wholePatch_iff (hp : 0 < p) {k : Nat × Nat} : WholePatch dataset p k ↔
    k.1 < dataset.rasterSizeX / p ∧ k.2 < dataset.rasterSizeY / p :=
  and_congr (Nat.le_div_iff_mul_le hp).symm (Nat.le_div_iff_mul_le hp).symm

theorem castInt_of_lt {n : Nat} (h : n < 2147483648) : castInt n = n :=
  Int.bmod_eq_of_le (by omega) (by omega)

theorem castSize_natCast {n : Nat} (h : n < 2147483648) : castSize n = n := by
  unfold castSize
  omega

theorem bufferSize_filledItem (dataset : Dataset T) (p band f : Nat) :
    (filledItem dataset p band f
      (getPaddedPatchImageDimension p dataset.rasterSizeX dataset.rasterSizeY f)).bufferSize =
      (elementCount dataset p f).toNat := by
  simp only [filledItem, elementCount]

theorem filterEdgeSize_filledItem (dataset : Dataset T) (p band f : Nat)
    (dimension : RasterDimension) :
    (filledItem dataset p band f dimension).filterEdgeSize = f := rfl

theorem createPatchedImage_eq (dataset : Dataset T) (p band f : Nat) :
    createPatchedImage dataset p band f =
      if Fits 32 (elementCount dataset p f) then
        if 0 ≤ elementCount dataset p f then
          .ok (filledItem dataset p band f
            (getPaddedPatchImageDimension p dataset.rasterSizeX dataset.rasterSizeY f))
        else .throws
      else .undefined := by
  unfold createPatchedImage elementCount
  dsimp only
  split
  · rename_i hfits
    rw [int32_of_fits hfits, Outcome.ok_bind]
    split
    · rename_i hpos
      rw [Outcome.require_of hpos, Outcome.ok_bind, Outcome.pure_eq]
    · rename_i hneg
      rw [Outcome.require_of_not hneg, Outcome.throws_bind]
  · rename_i hfits
    rw [int32_of_not_fits hfits, Outcome.undefined_bind]

theorem inPaddedPatch_iff {columns edge : Nat} {k : Nat × Nat} {index : Nat} :
    InPaddedPatch (columns * edge) edge k index ↔
      InPatch edge (columns * edge) (outOffset columns edge k) index := by
  simp only [InPaddedPatch, InPatch, paddedIndex, cell_outOffset]

/-- What the item holds when its dimensions are `int`s. -/
theorem holds_filledItem (dataset : Dataset T) (band : Nat) (hp : 0 < p) {columns rows : Nat}
    (hX : columns * (p + f) < 2147483648)
    (hY : rows * (p + f) < 2147483648) {k : Nat × Nat} (hcolumn : k.1 < columns)
    (hrow : k.2 < rows) :
    Holds p f (columns * (p + f)) (outOffset columns (p + f) k)
      (filledItem dataset p band f
        ⟨(columns * (p + f) : Nat), (rows * (p + f) : Nat)⟩).buffer
      (paddedElement p f (sourceElement dataset p band k)) := by
  have hcountX : getPatchCountFor (columns * (p + f)) (p + f) = columns :=
    Nat.mul_div_cancel columns (by omega)
  have hcountY : getPatchCountFor (rows * (p + f)) (p + f) = rows :=
    Nat.mul_div_cancel rows (by omega)
  simp only [filledItem, castSize_natCast hX, castSize_natCast hY,
    show (createPaddedPatchParameters p f).paddedPatchEdgeSize = p + f from rfl, hcountX, hcountY]
  have hpatches := (fillPatches_spec (f := f) hp (dataset.hostDataBuffer band) dataset.rasterSizeX
    (List.nodup_range.product List.nodup_range)
    (fun l hl => List.mem_range.mp (List.mem_product.mp hl).1) (fun _ => 0)
    (fun l _ r _ c _ => rfl)).1 k (List.mem_product.mpr
      ⟨List.mem_range.mpr hcolumn, List.mem_range.mpr hrow⟩)
  intro r hr c hc
  refine (hpatches r hr c hc).trans ?_
  congr 1
  funext i j
  simp only [sourceElement, inOffset]
  congr 1
  ring

theorem patchesPadded_filledItem_iff (hp : 0 < p)
    (hX : dataset.rasterSizeX / p * (p + f) < 2147483648)
    (hY : dataset.rasterSizeY / p * (p + f) < 2147483648) :
    PatchesPadded dataset p band f (filledItem dataset p band f
        ⟨(dataset.rasterSizeX / p * (p + f) : Nat), (dataset.rasterSizeY / p * (p + f) : Nat)⟩) ↔
      ∀ k, WholePatch dataset p k → ∀ i < p, ∀ j < p,
        2 * p ≤ i + f / 2 ∨ 2 * p ≤ j + f / 2 → sourceElement dataset p band k i j = 0 := by
  set item := filledItem dataset p band f
    ⟨(dataset.rasterSizeX / p * (p + f) : Nat), (dataset.rasterSizeY / p * (p + f) : Nat)⟩
    with hitem
  have hwidth : item.width = dataset.rasterSizeX / p * (p + f) := castSize_natCast hX
  have hheight : item.height = dataset.rasterSizeY / p * (p + f) := castSize_natCast hY
  have hcount : getPatchCountFor item.width (p + f) = dataset.rasterSizeX / p := by
    rw [hwidth]
    exact Nat.mul_div_cancel _ (by omega)
  -- every element that was filled is the padded source's
  have helement : ∀ k, WholePatch dataset p k → ∀ r < p + f, ∀ c < p + f,
      item.buffer (paddedIndex item.width (p + f) k r c) =
        paddedElement p f (sourceElement dataset p band k) r c := by
    intro k hk r hr c hc
    have hwhole := (wholePatch_iff hp).mp hk
    have hholds := holds_filledItem dataset band hp hX hY hwhole.1 hwhole.2 r hr c hc
    rw [cell_outOffset] at hholds
    rw [hwidth]
    exact hholds
  constructor
  · intro h k hk
    -- so the filling reflects just where the padded source does
    exact (paddedElement_eq_iff hp _).mp fun r hr c hc =>
      (helement k hk r hr c hc).symm.trans (h.reflected k hk r hr c hc)
  · intro hzero
    refine ⟨rfl, ?_, fun k hk => ?_, fun k hk r hr c hc => ?_,
      fun k hk line htop hbottom pi hpi => ?_, fun k hk move hmove => ?_,
      fun k l hk hl index hink hinl => ?_, fun k hk inputPatch hinput r hr c hc => ?_⟩
    · rw [hwidth, hheight]
      exact (Int.toNat_natCast _).symm
    · have hwhole := (wholePatch_iff hp).mp hk
      rw [hwidth, hheight]
      exact ⟨Nat.mul_le_mul_right _ hwhole.1, Nat.mul_le_mul_right _ hwhole.2⟩
    · exact (helement k hk r hr c hc).trans
        ((paddedElement_eq_iff hp _).mpr (hzero k hk) r hr c hc)
    · rw [hcount, hwidth, inPaddedPatch_iff]
      have htop : f / 2 ≤ line := htop
      have hbottom : line < p + f / 2 := hbottom
      refine ⟨line, by omega, f / 2 + pi, by omega, ?_⟩
      show _ = _ + (_ + f / 2 + pi)
      rw [cell, Nat.add_assoc (line * _)]
    · rw [hcount, hwidth] at hmove
      rw [hwidth, inPaddedPatch_iff, inPaddedPatch_iff]
      exact passes_inside hp hmove
    · rw [hwidth, inPaddedPatch_iff] at hink hinl
      exact inPatch_unique ((wholePatch_iff hp).mp hk).1 ((wholePatch_iff hp).mp hl).1 hink hinl
    · rw [createPatchWithPaddingFilled_apply hp inputPatch hr hc, helement k hk r hr c hc]
      unfold paddedElement
      exact if_congr Iff.rfl (hinput _ (reflect_lt hp _) _ (reflect_lt hp _)) rfl

omit [Zero T] in
theorem elementCount_eq (dataset : Dataset T) (p f : Nat) : elementCount dataset p f =
    castInt (dataset.rasterSizeX / p * (p + f)) * castInt (dataset.rasterSizeY / p * (p + f)) := by
  simp only [elementCount, getPaddedPatchImageDimension, getPatchCountFor, getPaddedPatchEdgeSize]

omit [Zero T] in
/-- With whole patches the padded image has an element, and its sides are below its number of
elements. -/
theorem sides_lt (hp : 0 < p) {k : Nat × Nat} (hk : WholePatch dataset p k)
    (h : dataset.rasterSizeX / p * (p + f) * (dataset.rasterSizeY / p * (p + f)) < 2147483648) :
    dataset.rasterSizeX / p * (p + f) < 2147483648 ∧
      dataset.rasterSizeY / p * (p + f) < 2147483648 := by
  have hwhole := (wholePatch_iff hp).mp hk
  have hX : 0 < dataset.rasterSizeX / p * (p + f) := Nat.mul_pos (by omega) (by omega)
  have hY : 0 < dataset.rasterSizeY / p * (p + f) := Nat.mul_pos (by omega) (by omega)
  exact ⟨(Nat.le_mul_of_pos_right _ hY).trans_lt h, (Nat.le_mul_of_pos_left _ hX).trans_lt h⟩

omit [Zero T] in
theorem dimension_eq (hX : dataset.rasterSizeX / p * (p + f) < 2147483648)
    (hY : dataset.rasterSizeY / p * (p + f) < 2147483648) :
    getPaddedPatchImageDimension p dataset.rasterSizeX dataset.rasterSizeY f =
      ⟨(dataset.rasterSizeX / p * (p + f) : Nat), (dataset.rasterSizeY / p * (p + f) : Nat)⟩ := by
  simp only [getPaddedPatchImageDimension, getPatchCountFor, getPaddedPatchEdgeSize,
    castInt_of_lt hX, castInt_of_lt hY]

theorem exists_createPatchedImage (hp : 0 < p) (h : PaddingReached dataset p band f) :
    ∃ item, createPatchedImage dataset p band f = .ok item ∧
      PatchesPadded dataset p band f item := by
  obtain ⟨hfits, hzero⟩ := h
  rw [createPatchedImage_eq]
  by_cases hwhole : ∃ k, WholePatch dataset p k
  · obtain ⟨k, hk⟩ := hwhole
    obtain ⟨hX, hY⟩ := sides_lt hp hk hfits
    have hcount : elementCount dataset p f =
        (dataset.rasterSizeX / p * (p + f) * (dataset.rasterSizeY / p * (p + f)) : Nat) := by
      rw [elementCount, dimension_eq hX hY]
      exact (Int.natCast_mul _ _).symm
    rw [if_pos (fits32_iff.mpr ⟨by omega, by omega⟩), if_pos (by omega), dimension_eq hX hY]
    exact ⟨_, rfl, (patchesPadded_filledItem_iff hp hX hY).mpr hzero⟩
  -- a side of the padded image is zero
  · have hside : castInt (dataset.rasterSizeX / p * (p + f)) = 0 ∨
        castInt (dataset.rasterSizeY / p * (p + f)) = 0 := by
      by_contra hboth
      refine hwhole ⟨(0, 0), (wholePatch_iff hp).mpr ⟨?_, ?_⟩⟩
      · refine Nat.pos_of_ne_zero fun hzero => hboth (Or.inl ?_)
        rw [hzero, Nat.zero_mul]
        rfl
      · refine Nat.pos_of_ne_zero fun hzero => hboth (Or.inr ?_)
        rw [hzero, Nat.zero_mul]
        rfl
    have hcount : elementCount dataset p f = 0 :=
      (elementCount_eq dataset p f).trans (mul_eq_zero.mpr hside)
    rw [hcount, if_pos (by decide), if_pos (Int.le_refl 0)]
    refine ⟨_, rfl, rfl, ?_, fun k hk => absurd ⟨k, hk⟩ hwhole, fun k hk => absurd ⟨k, hk⟩ hwhole,
      fun k hk => absurd ⟨k, hk⟩ hwhole, fun k hk => absurd ⟨k, hk⟩ hwhole,
      fun k l hk => absurd ⟨k, hk⟩ hwhole, fun k hk => absurd ⟨k, hk⟩ hwhole⟩
    rw [bufferSize_filledItem, hcount]
    refine mul_eq_zero.mpr (hside.imp (fun hX => ?_) fun hY => ?_)
    · simp only [filledItem, getPaddedPatchImageDimension, getPatchCountFor,
        getPaddedPatchEdgeSize, hX]
      rfl
    · simp only [filledItem, getPaddedPatchImageDimension, getPatchCountFor,
        getPaddedPatchEdgeSize, hY]
      rfl

/-- An image that is padded has as many elements as an `int` can count. -/
theorem elements_lt_of_padded (hp : 0 < p) {k : Nat × Nat} (hk : WholePatch dataset p k)
    {item : Item T} (hitem : createPatchedImage dataset p band f = .ok item)
    (hpadded : PatchesPadded dataset p band f item) :
    dataset.rasterSizeX / p * (p + f) * (dataset.rasterSizeY / p * (p + f)) < 2147483648 := by
  have hwhole := (wholePatch_iff hp).mp hk
  -- the last patch has room
  have hlast : WholePatch dataset p (dataset.rasterSizeX / p - 1, dataset.rasterSizeY / p - 1) :=
    (wholePatch_iff hp).mpr ⟨by omega, by omega⟩
  obtain ⟨hroomX, hroomY⟩ := hpadded.room _ hlast
  simp only [Nat.sub_add_cancel (show 1 ≤ dataset.rasterSizeX / p by omega),
    Nat.sub_add_cancel (show 1 ≤ dataset.rasterSizeY / p by omega)] at hroomX hroomY
  calc dataset.rasterSizeX / p * (p + f) * (dataset.rasterSizeY / p * (p + f))
      ≤ item.width * item.height := Nat.mul_le_mul hroomX hroomY
    _ = item.bufferSize := hpadded.stored
    _ < 2147483648 := by
      rw [createPatchedImage_eq] at hitem
      split at hitem
      · rename_i hfits
        have hbound := fits32_iff.mp hfits
        split at hitem
        · rw [← Outcome.ok.inj hitem, bufferSize_filledItem]
          exact (Int.toNat_lt' (by decide)).mpr hbound.2
        · cases hitem
      · cases hitem

theorem paddingReached_of_padded (hp : 0 < p) {item : Item T}
    (hitem : createPatchedImage dataset p band f = .ok item)
    (hpadded : PatchesPadded dataset p band f item) : PaddingReached dataset p band f := by
  by_cases hwhole : ∃ k, WholePatch dataset p k
  · obtain ⟨k, hk⟩ := hwhole
    have hfits := elements_lt_of_padded hp hk hitem hpadded
    obtain ⟨hX, hY⟩ := sides_lt hp hk hfits
    refine ⟨hfits, (patchesPadded_filledItem_iff hp hX hY).mp ?_⟩
    rw [createPatchedImage_eq, dimension_eq hX hY] at hitem
    split at hitem
    · split at hitem
      · exact Outcome.ok.inj hitem ▸ hpadded
      · cases hitem
    · cases hitem
  · refine ⟨?_, fun k hk => absurd ⟨k, hk⟩ hwhole⟩
    have hside : dataset.rasterSizeX / p = 0 ∨ dataset.rasterSizeY / p = 0 := by
      by_contra hboth
      exact hwhole ⟨(0, 0), (wholePatch_iff hp).mpr
        ⟨Nat.pos_of_ne_zero fun hX => hboth (Or.inl hX),
          Nat.pos_of_ne_zero fun hY => hboth (Or.inr hY)⟩⟩
    rcases hside with hX | hY
    · rw [hX, Nat.zero_mul, Nat.zero_mul]
      decide
    · rw [hY, Nat.zero_mul, Nat.mul_zero]
      decide

end Padded

/-! ## The images of all bands and filters -/

section Run

variable {T : Type} [Zero T] {dataset : Dataset T} {p : Nat}

/-- Each image that was made has the padded patches, the call ends with all of them or rejects
one. -/
structure PatchedImagesPadded (dataset : Dataset T) (filterEdgeSizes : List Nat) (p : Nat)
    (run : PatchedImages T × Outcome Unit) : Prop where
  defined : run.2 ≠ .undefined
  padded : ∀ band, ∀ item ∈ run.1 band, PatchesPadded dataset p band item.filterEdgeSize item
  complete : run.2 = .ok () → ∀ band < dataset.bandCount, ∀ f ∈ filterEdgeSizes,
    ∃ item ∈ run.1 band, item.filterEdgeSize = f

omit [Zero T] in
/-- What is pushed back stays. -/
theorem mem_createPatchedImages {create : Nat → Nat → Outcome (Item T)} {pairs : List (Nat × Nat)}
    {images : PatchedImages T} {band : Nat} {item : Item T} (h : item ∈ images band) :
    item ∈ (createPatchedImages create pairs images).1 band := by
  induction pairs generalizing images with
  | nil => exact h
  | cons pair pairs ih =>
    unfold createPatchedImages
    split
    · refine ih ?_
      by_cases hband : band = pair.1
      · rw [hband, Function.update_self]
        exact List.mem_append_left _ (hband ▸ h)
      · rwa [Function.update_of_ne hband]
    · exact h
    · exact h

omit [Zero T] in
/-- A call that returns has made the image of each pair. -/
theorem exists_item_createPatchedImages {create : Nat → Nat → Outcome (Item T)}
    (hedge : ∀ band f item, create band f = .ok item → item.filterEdgeSize = f)
    {pairs : List (Nat × Nat)} {images : PatchedImages T}
    (h : (createPatchedImages create pairs images).2 = .ok ()) {pair : Nat × Nat}
    (hpair : pair ∈ pairs) :
    ∃ item ∈ (createPatchedImages create pairs images).1 pair.1,
      item.filterEdgeSize = pair.2 := by
  induction pairs generalizing images with
  | nil => cases hpair
  | cons first pairs ih =>
    unfold createPatchedImages at h ⊢
    split at h
    · rename_i item hitem
      rcases List.mem_cons.mp hpair with rfl | hpair
      · refine ⟨item, mem_createPatchedImages ?_, hedge _ _ item hitem⟩
        rw [Function.update_self]
        exact List.mem_append_right _ (List.mem_singleton.mpr rfl)
      · exact ih h hpair
    · cases h
    · cases h

theorem filterEdgeSize_createPatchedImage {band f : Nat} {item : Item T}
    (h : createPatchedImage dataset p band f = .ok item) : item.filterEdgeSize = f := by
  rw [createPatchedImage_eq] at h
  split at h
  · split at h
    · rw [← Outcome.ok.inj h, filterEdgeSize_filledItem]
    · cases h
  · cases h

omit [Zero T] in
/-- The run: up to the first pair that is rejected, a good image is made of each. -/
theorem createPatchedImages_iff {create : Nat → Nat → Outcome (Item T)} {rejected : Nat → Prop}
    [DecidablePred rejected] {reached : Nat → Nat → Prop} {good : Nat → Item T → Prop}
    (hstep : ∀ band f, (rejected f ∧ create band f = .throws) ∨
      (¬ rejected f ∧ create band f = .undefined ∧ ¬ reached band f) ∨
      (¬ rejected f ∧ ∃ item, create band f = .ok item ∧ (good band item ↔ reached band f)))
    (pairs : List (Nat × Nat)) {images : PatchedImages T}
    (himages : ∀ band, ∀ item ∈ images band, good band item) :
    ((createPatchedImages create pairs images).2 ≠ .undefined ∧
      ∀ band, ∀ item ∈ (createPatchedImages create pairs images).1 band, good band item) ↔
    ∀ pair ∈ pairs.takeWhile fun pair => ¬ rejected pair.2, reached pair.1 pair.2 := by
  -- the induction is on the pairs left, with the images stored so far
  induction pairs generalizing images with
  | nil => exact ⟨fun _ => nofun, fun _ => ⟨nofun, himages⟩⟩
  | cons pair pairs ih =>
    unfold createPatchedImages
    rcases hstep pair.1 pair.2 with
      ⟨hrejected, hthrows⟩ | ⟨hnot, hundefined, hreached⟩ | ⟨hnot, item, hok, hiff⟩
    · rw [hthrows, List.takeWhile_cons_of_neg (by simpa using hrejected)]
      exact ⟨fun _ => nofun, fun _ => ⟨nofun, himages⟩⟩
    · rw [hundefined, List.takeWhile_cons_of_pos (by simpa using hnot)]
      exact ⟨fun h => absurd rfl h.1, fun h => absurd (h pair List.mem_cons_self) hreached⟩
    · rw [hok, List.takeWhile_cons_of_pos (by simpa using hnot), List.forall_mem_cons, ← hiff]
      have hpushed : item ∈ Function.update images pair.1 (images pair.1 ++ [item]) pair.1 := by
        rw [Function.update_self]
        exact List.mem_append_right _ (List.mem_singleton.mpr rfl)
      -- storing a good image keeps all of them good
      have hinv : good pair.1 item → ∀ band,
          ∀ item' ∈ Function.update images pair.1 (images pair.1 ++ [item]) band,
            good band item' := by
        intro hgood band item' hitem'
        by_cases hband : band = pair.1
        · rw [hband, Function.update_self] at hitem'
          rcases List.mem_append.mp hitem' with hold | hnew
          · exact hband ▸ himages pair.1 item' hold
          · rw [hband, List.mem_singleton.mp hnew]
            exact hgood
        · rw [Function.update_of_ne hband] at hitem'
          exact himages band item' hitem'
      constructor
      · intro h
        have hgood := h.2 pair.1 item (mem_createPatchedImages hpushed)
        exact ⟨hgood, (ih (hinv hgood)).mp h⟩
      · intro h
        exact (ih (hinv h.1)).mpr h.2

/-- The step: a pair is rejected, padded as it should be, or neither. -/
theorem createPatchedImage_cases (dataset : Dataset T) (hp : 0 < p) (band f : Nat) :
    (Rejected dataset p f ∧ createPatchedImage dataset p band f = .throws) ∨
    (¬ Rejected dataset p f ∧ createPatchedImage dataset p band f = .undefined ∧
      ¬ PaddingReached dataset p band f) ∨
    (¬ Rejected dataset p f ∧ ∃ item, createPatchedImage dataset p band f = .ok item ∧
      (PatchesPadded dataset p band item.filterEdgeSize item ↔
        PaddingReached dataset p band f)) := by
  have hreached : PaddingReached dataset p band f → _ := exists_createPatchedImage hp
  have heq := createPatchedImage_eq dataset p band f
  by_cases hfits : Fits 32 (elementCount dataset p f)
  · by_cases hpos : 0 ≤ elementCount dataset p f
    · rw [if_pos hfits, if_pos hpos] at heq
      refine Or.inr (Or.inr ⟨fun h => absurd h.2 (by omega), _, heq, ?_⟩)
      rw [filterEdgeSize_filledItem]
      refine ⟨paddingReached_of_padded hp heq, fun h => ?_⟩
      obtain ⟨item, hitem, hgood⟩ := hreached h
      rw [heq] at hitem
      exact Outcome.ok.inj hitem ▸ hgood
    · rw [if_pos hfits, if_neg hpos] at heq
      exact Or.inl ⟨⟨hfits, by omega⟩, heq⟩
  · rw [if_neg hfits] at heq
    refine Or.inr (Or.inl ⟨fun h => hfits h.1, heq, fun h => ?_⟩)
    obtain ⟨item, hitem, -⟩ := hreached h
    rw [heq] at hitem
    cases hitem

/-- The patches are padded by reflection exactly when, up to the first pair that is rejected, the
padded image has as many elements as an `int` can count and the pixels are zero that the passes
would have to reflect from beyond the neighbouring patch. -/
theorem createPatchedImagesFor_padded_iff (dataset : Dataset T) (filterEdgeSizes : List Nat)
    (hp : 0 < p) :
    PatchedImagesPadded dataset filterEdgeSizes p
        (createPatchedImagesFor dataset filterEdgeSizes p fun _ => []) ↔
      castInt p ≠ 0 ∧
      ∀ pair ∈ (List.range dataset.bandCount ×ˢ filterEdgeSizes).takeWhile
          fun pair => ¬ Rejected dataset p pair.2,
        PaddingReached dataset p pair.1 pair.2 := by
  unfold createPatchedImagesFor
  by_cases hcast : castInt p = 0
  · rw [if_pos hcast]
    exact ⟨fun h => absurd rfl h.defined, fun h => absurd hcast h.1⟩
  · rw [if_neg hcast]
    have hnew : ∀ band, ∀ item ∈ (fun _ => [] : PatchedImages T) band,
        PatchesPadded dataset p band item.filterEdgeSize item := nofun
    have hrun := createPatchedImages_iff (createPatchedImage_cases dataset hp)
      (List.range dataset.bandCount ×ˢ filterEdgeSizes) hnew
    constructor
    · intro h
      exact ⟨hcast, hrun.mp ⟨h.defined, h.padded⟩⟩
    · intro h
      obtain ⟨hdefined, hpadded⟩ := hrun.mpr h.2
      refine ⟨hdefined, hpadded, fun hok band hband f hf => ?_⟩
      exact exists_item_createPatchedImages (fun _ _ _ => filterEdgeSize_createPatchedImage) hok
        (List.mem_product.mpr ⟨List.mem_range.mpr hband, hf⟩)

/-- Two patches of edge two, for a filter of edge three. -/
theorem createPatchedImagesFor_padded_two :
    PatchedImagesPadded (⟨4, 2, 1, fun _ i => i⟩ : Dataset Nat) [3] 2
      (createPatchedImagesFor ⟨4, 2, 1, fun _ i => i⟩ [3] 2 fun _ => []) := by
  refine (createPatchedImagesFor_padded_iff _ [3] (by decide)).mpr ⟨by decide, fun pair hpair => ?_⟩
  have hmem := (List.takeWhile_sublist _).subset hpair
  have hf : pair.2 = 3 := List.mem_singleton.mp (List.mem_product.mp hmem).2
  rw [PaddingReached, hf]
  exact ⟨by decide, fun k _ i hi j hj hfar => by omega⟩

/-- One pixel and a filter of edge four: the corner would be the pixel, and was never written. -/
theorem not_padded_single_pixel :
    ¬ PatchedImagesPadded (⟨1, 1, 1, fun _ _ => 1⟩ : Dataset Nat) [4] 1
      (createPatchedImagesFor ⟨1, 1, 1, fun _ _ => 1⟩ [4] 1 fun _ => []) := by
  intro h
  have hmade : (createPatchedImagesFor (⟨1, 1, 1, fun _ _ => 1⟩ : Dataset Nat) [4] 1
      fun _ => []).1 0 = [filledItem ⟨1, 1, 1, fun _ _ => 1⟩ 1 0 4 ⟨5, 5⟩] := rfl
  have hpadded := h.padded 0 (filledItem ⟨1, 1, 1, fun _ _ => 1⟩ 1 0 4 ⟨5, 5⟩)
    (hmade ▸ List.mem_singleton.mpr rfl)
  have hcorner := hpadded.reflected (0, 0) ⟨by decide, by decide⟩ 0 (by decide) 0 (by decide)
  have hunwritten :
      (filledItem (⟨1, 1, 1, fun _ _ => 1⟩ : Dataset Nat) 1 0 4 ⟨5, 5⟩).buffer 0 = 0 := by
    decide +kernel
  exact absurd (hunwritten.symm.trans hcorner) (by decide)

end Run

end Alus.FeatureExtractionGabor
